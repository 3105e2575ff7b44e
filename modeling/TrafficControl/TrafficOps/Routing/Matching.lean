import TrafficControl.Lib.DottedNames
import TrafficControl.Lib.PutAll
import TrafficControl.TrafficOps.Routing.Paths

set_option autoImplicit false

-- The requests that the expression of a route matches, and the parameters that it finds in them.
namespace Routing

open DoubleText Submatch Submatch.Expr

def Segment.Matches : Segment → List Char → Prop
  | literal text, s => s = text.1
  | param _, s => s ≠ [] ∧ '/' ∉ s

structure Ending.Matches (ending : Ending) (s : List Char) : Prop where
  split : ∃ slash extension, s = slash ++ extension ∧ (slash = [] ∨ ending.slash = true ∧ slash = ['/']) ∧
    (extension = [] ∨ ∃ e, ending.extension = some e ∧ extension = '.' :: e.1)

-- The texts with a slash before each.
def joined (texts : List (List Char)) : List Char := texts.flatMap fun text => '/' :: text

def WrittenPath.EndMatches (path : WrittenPath) (s : List Char) : Prop :=
  path.ending.elim (s = []) fun ending => ending.Matches s

/-- The texts of the segments, and what the ending allows. -/
def WrittenPath.Matches (path : WrittenPath) (s : List Char) : Prop :=
  ∃ first rest ending, s = first ++ joined rest ++ ending ∧ path.first.Matches first ∧
    List.Forall₂ Segment.Matches path.rest rest ∧ path.EndMatches ending

/-- The request is the prefix, the version and a match of the path, and nothing else. -/
def Whole (version : Rat) (path : WrittenPath) (requested : List Char) : Prop :=
  ∃ body, requested = routePrefix ++ '/' :: formatFloat version ++ '/' :: body ∧ path.Matches body

-- The text of a version with any characters for its point.
def Loosely (version : Rat) (s : List Char) : Prop :=
  List.Forall₂ (fun c d => d = c ∨ c = '.' ∧ d ≠ '\n') (formatFloat version) s

/-- Somewhere in the request there is such a text, at its end if the path has an ending. -/
def Occurs (version : Rat) (path : WrittenPath) (requested : List Char) : Prop :=
  ∃ before v body after, requested = before ++ (routePrefix ++ '/' :: v ++ '/' :: body ++ after) ∧ Loosely version v ∧
    path.Matches body ∧ (path.ending.isSome = true → after = [])

section Reading

variable {s rest : List Char}

theorem reads_segmentItem (segment : Segment) :
    Reads (seq segment.items) s rest ↔ ∃ text, segment.Matches text ∧ s = text ++ rest := by
  cases segment with
  | literal text => simp [Segment.items, Segment.Matches]
  | param name =>
    have slashless (part : List Char) : (∀ c ∈ part, CharClass.accepts (.except '/') c = true) ↔ '/' ∉ part := by
      simp only [CharClass.accepts, bne_iff_ne, ne_eq]
      exact ⟨fun all member => all '/' member rfl, fun absent c member same => absent (same ▸ member)⟩
    simp [Segment.items, Segment.Matches, slashless, and_assoc]

theorem reads_segmentItems (segments : List Segment) :
    Reads (seq (segmentItems segments)) s rest ↔ ∃ texts, List.Forall₂ Segment.Matches segments texts ∧ s = joined texts ++ rest := by
  induction segments generalizing s with
  | nil => simp [segmentItems, joined]
  | cons segment segments ih =>
    have split : segmentItems (segment :: segments) = one (.only '/') :: (segment.items ++ segmentItems segments) := by
      simp [segmentItems]
    simp only [split, seq_cons, reads_cat, reads_one, reads_append, reads_segmentItem, ih, CharClass.accepts, beq_iff_eq,
      List.forall₂_cons_left_iff]
    constructor
    · rintro ⟨_, ⟨c, rfl, rfl⟩, _, ⟨text, fits, rfl⟩, texts, all, rfl⟩
      exact ⟨text :: texts, ⟨text, texts, fits, all, rfl⟩, by simp [joined]⟩
    · rintro ⟨_, ⟨text, texts, fits, all, rfl⟩, rfl⟩
      exact ⟨text ++ (joined texts ++ rest), ⟨'/', rfl, by simp [joined]⟩, joined texts ++ rest, ⟨text, fits, rfl⟩, texts, all, rfl⟩

theorem reads_ending (ending : Ending) : Reads (seq ending.items) s rest ↔ ending.Matches s ∧ rest = [] := by
  have slash : ∀ {middle : List Char}, Reads (seq (if ending.slash then [maybe (one (.only '/'))] else [])) s middle ↔
      ∃ slash, (slash = [] ∨ ending.slash = true ∧ slash = ['/']) ∧ s = slash ++ middle := by
    intro middle
    cases ending.slash <;> simp [CharClass.accepts, or_and_right, exists_or, or_comm]
  have extension : ∀ {s middle : List Char}, Reads (seq (ending.extension.elim [] fun e =>
        [maybe (group (seq (chars ('.' :: e.1))))])) s middle ↔
      ∃ extension, (extension = [] ∨ ∃ e, ending.extension = some e ∧ extension = '.' :: e.1) ∧ s = extension ++ middle := by
    intro s middle
    cases ending.extension with
    | none => simp
    | some e =>
      simp only [Option.elim_some, seq_cons, seq_nil, reads_cat, reads_maybe, reads_group, reads_chars, reads_empty]
      simp [or_and_right, exists_or, or_comm]
  unfold Ending.items
  simp only [reads_append, slash, extension, seq_cons, seq_nil, reads_cat, reads_empty, reads_atEnd]
  constructor
  · rintro ⟨_, ⟨_, ⟨first, slashes, rfl⟩, last, extends_, rfl⟩, _, ⟨rfl, rfl⟩, rfl⟩
    exact ⟨⟨first, last, by simp, slashes, extends_⟩, rfl⟩
  · rintro ⟨⟨first, last, rfl, slashes, extends_⟩, rfl⟩
    exact ⟨[], ⟨last, ⟨first, slashes, rfl⟩, last, extends_, by simp⟩, [], ⟨rfl, rfl⟩, rfl⟩

theorem reads_endingItems (path : WrittenPath) :
    Reads (seq path.endingItems) s rest ↔
      ∃ ending, path.EndMatches ending ∧ s = ending ++ rest ∧ (path.ending.isSome = true → rest = []) := by
  unfold WrittenPath.endingItems WrittenPath.EndMatches
  cases path.ending with
  | none => simp
  | some ending =>
    simp only [Option.elim_some, reads_ending, Option.isSome_some, true_implies]
    constructor
    · rintro ⟨fits, rfl⟩
      exact ⟨s, fits, (List.append_nil s).symm, rfl⟩
    · rintro ⟨_, fits, rfl, rfl⟩
      exact ⟨(List.append_nil _).symm ▸ fits, rfl⟩

theorem matches_iff {path : WrittenPath} {body : List Char} :
    path.Matches body ↔ ∃ texts ending, '/' :: body = joined texts ++ ending ∧
      List.Forall₂ Segment.Matches path.segments texts ∧ path.EndMatches ending := by
  constructor
  · rintro ⟨first, rest, ending, rfl, fits, all, last⟩
    exact ⟨first :: rest, ending, by simp [joined], .cons fits all, last⟩
  · rintro ⟨texts, ending, split, all, last⟩
    obtain ⟨first, rest, fits, others, rfl⟩ := List.forall₂_cons_left_iff.mp all
    exact ⟨first, rest, ending, by simpa [joined] using split, fits, others, last⟩

theorem versionClasses_iff {version : Rat} {s : List Char} :
    List.Forall₂ (fun accepted c => CharClass.accepts accepted c = true) (versionClasses version) s ↔ Loosely version s := by
  unfold versionClasses Loosely
  rw [List.forall₂_map_left_iff]
  have same : (fun c d : Char => CharClass.accepts (if c = '.' then .line else .only c) d = true) =
      fun c d => d = c ∨ c = '.' ∧ d ≠ '\n' := by
    funext c d
    by_cases point : c = '.'
    · subst point
      have clear : d = '.' → d ≠ '\n' := fun same other => absurd (same.symm.trans other) (by decide)
      simpa [CharClass.accepts] using clear
    · simp [point, CharClass.accepts]
  rw [same]

/-- The expression of a route reads what the path matches, behind a version with any character for its point. -/
theorem reads_routeItems (version : Rat) (path : WrittenPath) :
    Reads (seq (routeItems version path)) s rest ↔
      ∃ v body, s = routePrefix ++ '/' :: v ++ '/' :: body ++ rest ∧ Loosely version v ∧ path.Matches body ∧
        (path.ending.isSome = true → rest = []) := by
  unfold routeItems
  simp only [reads_append, reads_chars, reads_spelled, reads_segmentItems, reads_endingItems, versionClasses_iff, matches_iff]
  constructor
  · rintro ⟨_, rfl, _, ⟨v, loosely, rfl⟩, _, ⟨texts, all, rfl⟩, ending, last, rfl, stops⟩
    obtain ⟨first, others, fits, rest', rfl⟩ := List.forall₂_cons_left_iff.mp all
    exact ⟨v, first ++ joined others ++ ending, by simp [joined], loosely,
      ⟨first :: others, ending, by simp [joined], all, last⟩, stops⟩
  · rintro ⟨v, body, rfl, loosely, ⟨texts, ending, split, all, last⟩, stops⟩
    refine ⟨_, ?_, '/' :: body ++ rest, ⟨v, loosely, rfl⟩, ending ++ rest, ⟨texts, all, ?_⟩, ending, last, rfl, stops⟩
    · simp
    · rw [split, List.append_assoc]

theorem findSubmatch_iff {version : Rat} {path : WrittenPath} {requested : List Char} :
    (findSubmatch (seq (routeItems version path)) requested).isSome = true ↔ Occurs version path requested := by
  simp only [findSubmatch_isSome, reads_routeItems]
  constructor
  · rintro ⟨before, after, rest, rfl, v, body, rfl, loosely, fits, stops⟩
    exact ⟨before, v, body, rest, rfl, loosely, fits, stops⟩
  · rintro ⟨before, v, body, rest, rfl, loosely, fits, stops⟩
    exact ⟨before, _, rest, rfl, v, body, rfl, loosely, fits, stops⟩

theorem loosely_formatFloat (version : Rat) : Loosely version (formatFloat version) :=
  List.forall₂_same.mpr fun _ _ => Or.inl rfl

theorem Whole.occurs {version : Rat} {path : WrittenPath} {requested : List Char} (whole : Whole version path requested) :
    Occurs version path requested := by
  obtain ⟨body, rfl, fits⟩ := whole
  exact ⟨[], formatFloat version, body, [], by simp, loosely_formatFloat version, fits, fun _ => rfl⟩

end Reading

section Captures

def bound (segments : List Segment) (parts : List (List Char)) : List (List Char × List Char) :=
  (segments.zip parts).filterMap fun pair => pair.1.name.map fun name => (name, pair.2)

/-- The parameters of a path with the texts of their segments of the request. -/
def bindings (path : WrittenPath) (requested : List Char) : List (List Char × List Char) :=
  bound path.segments ((requested.splitOn '/').drop 2)

-- A text that ends a segment.
def Stops (s : List Char) : Prop := s = [] ∨ s.head? = some '/'

-- A segment that was read in part can be read as a whole.
def Lenient (items : List Expr) : Prop :=
  ∀ part s rest, '/' ∉ part → Stops s → Reads (seq items) (part ++ s) rest → ∃ rest', Reads (seq items) s rest'

theorem lenient_endingItems (path : WrittenPath) : Lenient path.endingItems := by
  intro part s rest slashless stops reads
  obtain ⟨ending, fits, split, last⟩ := (reads_endingItems path).mp reads
  cases part with
  | nil => exact ⟨rest, reads⟩
  | cons c part =>
    cases written : path.ending with
    | none => exact ⟨s, (reads_endingItems path).mpr ⟨[], by simp [WrittenPath.EndMatches, written], rfl, by simp [written]⟩⟩
    | some allowed =>
      obtain rfl := last (by rw [written]; rfl)
      rw [List.append_nil] at split
      subst split
      simp only [WrittenPath.EndMatches, written, Option.elim_some] at fits
      obtain ⟨slash, extension, split, slashes, extends_⟩ := fits.split
      have bare : slash = [] := by
        rcases slashes with none | ⟨_, rfl⟩
        · exact none
        · exact absurd (List.mem_cons.mpr (Or.inl (List.cons.inj split).1.symm)) slashless
      subst bare
      have slashless' : '/' ∉ extension := by
        rcases extends_ with rfl | ⟨e, _, rfl⟩
        · exact List.not_mem_nil
        · intro member
          rcases List.mem_cons.mp member with point | later
          · exact absurd point (by decide)
          · exact (e.2 '/' later).1 rfl
      have empty : s = [] := by
        refine stops.resolve_right fun head => slashless' ?_
        rw [List.nil_append] at split
        rw [← split]
        exact List.mem_append_right _ (List.mem_of_mem_head? head)
      subst empty
      refine ⟨[], (reads_endingItems path).mpr ⟨[], ?_, rfl, fun _ => rfl⟩⟩
      simp only [WrittenPath.EndMatches, written, Option.elim_some]
      exact ⟨⟨[], [], rfl, Or.inl rfl, Or.inl rfl⟩⟩

theorem stops_of_reads {segments : List Segment} {tail : List Expr} {s rest : List Char} (some_left : segments ≠ [])
    (reads : Reads (seq (segmentItems segments ++ tail)) s rest) : s.head? = some '/' := by
  obtain ⟨segment, segments, rfl⟩ := List.exists_cons_of_ne_nil some_left
  obtain ⟨_, front, _⟩ := reads_append.mp reads
  obtain ⟨texts, all, rfl⟩ := (reads_segmentItems _).mp front
  obtain ⟨text, texts, _, _, rfl⟩ := List.forall₂_cons_left_iff.mp all
  rfl

theorem Lenient.segments {tail : List Expr} (lenient : Lenient tail) (segments : List Segment) :
    Lenient (segmentItems segments ++ tail) := by
  by_cases none : segments = []
  · subst none
    exact lenient
  · intro part s rest slashless _ reads
    have head := stops_of_reads none reads
    cases part with
    | nil => exact ⟨rest, reads⟩
    | cons c part =>
      have slash : c = '/' := Option.some.inj head
      exact absurd (slash ▸ List.mem_cons_self) slashless

theorem split_slash (s : List Char) : ('/' :: s).splitOn '/' = [] :: s.splitOn '/' :=
  @DottedNames.split_cons_part Char _ '/' [] List.not_mem_nil s

theorem parts_cons {text s : List Char} (slashless : '/' ∉ text) (stops : Stops s) :
    (('/' :: (text ++ s)).splitOn '/').tail = text :: (s.splitOn '/').tail := by
  rw [split_slash, List.tail_cons]
  cases s with
  | nil => rw [List.append_nil, List.splitOn_eq_singleton slashless, List.splitOn_nil, List.tail_cons]
  | cons c s =>
    obtain rfl : c = '/' := Option.some.inj (stops.resolve_left (List.cons_ne_nil _ _))
    rw [DottedNames.split_cons_part slashless, split_slash, List.tail_cons]

theorem slashless_takeWhile (s : List Char) : '/' ∉ s.takeWhile (· ≠ '/') := fun member =>
  absurd (List.mem_takeWhile_imp member) (by simp)

theorem stops_dropWhile (s : List Char) : Stops (s.dropWhile (· ≠ '/')) := by
  induction s with
  | nil => exact Or.inl rfl
  | cons c s ih =>
    by_cases slash : c = '/'
    · subst slash
      exact Or.inr rfl
    · rw [List.dropWhile_cons_of_pos (by simpa using slash)]
      exact ih

theorem first_segment {text s : List Char} (nonempty : text ≠ []) (slashless : '/' ∉ text) (stops : Stops s) :
    first (group (seq [Expr.more (.except '/')])) (text ++ s) = some ⟨text, s, [text]⟩ := by
  apply first_part nonempty
  · intro c member
    exact bne_iff_ne.mpr fun same => slashless (same ▸ member)
  · intro c head
    have slash : c = '/' := by
      rcases stops with rfl | slash
      · cases head
      · exact Option.some.inj (head.symm.trans slash)
    subst slash
    rfl

/-- The first way to read the segments gives every parameter the whole text of its segment. -/
theorem first_segments (segments : List Segment) {tail : List Expr} (lenient : Lenient tail) {s rest : List Char}
    (reads : Reads (seq (segmentItems segments ++ tail)) s rest) :
    ∃ x more, first (seq (segmentItems segments ++ tail)) s = some x ∧
      x.captures = (bound segments (s.splitOn '/').tail).map Prod.snd ++ more ∧
      names segments = (bound segments (s.splitOn '/').tail).map Prod.fst := by
  induction segments generalizing s rest with
  | nil =>
    obtain ⟨x, found⟩ := exists_first reads
    exact ⟨x, x.captures, found, rfl, rfl⟩
  | cons segment segments ih =>
    have split : segmentItems (segment :: segments) ++ tail =
        one (.only '/') :: (segment.items ++ (segmentItems segments ++ tail)) := by simp [segmentItems]
    rw [split] at reads ⊢
    obtain ⟨_, slash, read⟩ := reads_cat.mp reads
    obtain ⟨c, accept, rfl⟩ := reads_one.mp slash
    obtain rfl : c = '/' := by simpa [CharClass.accepts] using accept
    obtain ⟨middle, own, later⟩ := reads_append.mp read
    obtain ⟨text, fits, rfl⟩ := (reads_segmentItem segment).mp own
    have start : first (one (.only '/')) ('/' :: (text ++ middle)) = some ⟨['/'], text ++ middle, []⟩ := rfl
    cases segment with
    | literal literal =>
      obtain rfl : text = literal.1 := fits
      have slashless : '/' ∉ literal.1 := fun member => (literal.2 '/' member).1 rfl
      obtain ⟨x, more, found, captures, same⟩ := ih later
      have here : first (seq (chars literal.1)) (literal.1 ++ middle) = some ⟨literal.1, middle, []⟩ := first_chars
      have skipped : bound (.literal literal :: segments) (('/' :: (literal.1 ++ middle)).splitOn '/').tail =
          bound segments (middle.splitOn '/').tail := by
        by_cases none : segments = []
        · subst none
          cases (('/' :: (literal.1 ++ middle)).splitOn '/').tail <;> rfl
        · rw [parts_cons slashless (Or.inr (stops_of_reads none later))]
          rfl
      rw [skipped]
      exact ⟨_, more, first_cat start (first_append here found), captures, same⟩
    | param name =>
      obtain ⟨nonempty, slashless⟩ := fits
      have whole : middle = middle.takeWhile (· ≠ '/') ++ middle.dropWhile (· ≠ '/') := List.takeWhile_append_dropWhile.symm
      have stops := stops_dropWhile middle
      have slashless' := slashless_takeWhile middle
      generalize middle.takeWhile (· ≠ '/') = part, middle.dropWhile (· ≠ '/') = left at whole stops slashless'
      subst whole
      obtain ⟨rest', later'⟩ := lenient.segments segments part left rest slashless' stops later
      obtain ⟨x, more, found, captures, same⟩ := ih later'
      have clear : '/' ∉ text ++ part := fun member => (List.mem_append.mp member).elim slashless slashless'
      have regrouped : text ++ (part ++ left) = text ++ part ++ left := (List.append_assoc text part left).symm
      rw [regrouped] at start ⊢
      have here := first_segment (List.append_ne_nil_of_left_ne_nil nonempty part) clear stops
      rw [parts_cons clear stops]
      refine ⟨_, more, first_cat start (first_cat here found), ?_, ?_⟩
      · rw [captures]
        rfl
      · rw [names_param, same]
        rfl

theorem bindings_whole (path : WrittenPath) (version : Rat) (body : List Char) :
    bindings path (routePrefix ++ '/' :: formatFloat version ++ '/' :: body) =
      bound path.segments (('/' :: body).splitOn '/').tail := by
  have name : '/' ∉ routePrefix := by decide
  have number : '/' ∉ formatFloat version := by
    intro member
    rcases formatFloat_numeral member with digit | point | sign
    · exact absurd digit (by decide)
    · exact absurd point (by decide)
    · exact absurd sign (by decide)
  have split : (routePrefix ++ '/' :: formatFloat version ++ '/' :: body).splitOn '/' =
      routePrefix :: formatFloat version :: body.splitOn '/' := by
    rw [List.append_assoc, List.cons_append, DottedNames.split_cons_part name, DottedNames.split_cons_part number]
  rw [bindings, split, split_slash]
  rfl

/-- A request that is matched as a whole gives the parameters the texts of their segments. -/
theorem findSubmatch_whole {version : Rat} {path : WrittenPath} {requested : List Char}
    (whole : Whole version path requested) :
    ∃ text more, findSubmatch (seq (routeItems version path)) requested =
        some (text :: ((bindings path requested).map Prod.snd ++ more)) ∧
      names path.segments = (bindings path requested).map Prod.fst := by
  obtain ⟨body, rfl, fits⟩ := whole
  obtain ⟨texts, ending, split, all, last⟩ := matches_iff.mp fits
  have reads : Reads (seq (segmentItems path.segments ++ path.endingItems)) ('/' :: body) [] := by
    rw [split]
    exact reads_append.mpr ⟨ending, (reads_segmentItems _).mpr ⟨texts, all, rfl⟩,
      (reads_endingItems path).mpr ⟨ending, last, (List.append_nil ending).symm, fun _ => rfl⟩⟩
  obtain ⟨x, more, found, captures, same⟩ := first_segments path.segments (lenient_endingItems path) reads
  have version_first : first (seq (spelled (versionClasses version))) (formatFloat version ++ '/' :: body) =
      some ⟨formatFloat version, '/' :: body, []⟩ := first_spelled (versionClasses_iff.mpr (loosely_formatFloat version))
  have prefix_first : first (seq (chars (routePrefix ++ ['/'])))
      (routePrefix ++ ['/'] ++ (formatFloat version ++ '/' :: body)) =
        some ⟨routePrefix ++ ['/'], formatFloat version ++ '/' :: body, []⟩ := first_chars
  have all_first := findSubmatch_first (first_append prefix_first (first_append version_first found))
  rw [bindings_whole]
  refine ⟨routePrefix ++ ['/'] ++ (formatFloat version ++ x.consumed), more, ?_, same⟩
  rw [captures] at all_first
  simpa [routeItems] using all_first

end Captures

section Bind

def params (pairs : List (List Char × List Char)) : AList fun _ : List Char => List Char :=
  PutAll.putAll Prod.fst Prod.snd ∅ pairs

variable {text : List Char}

theorem bindParam_foldlM (pairs : List (List Char × List Char)) (before more : List (List Char))
    (map : AList fun _ : List Char => List Char) :
    ((pairs.map Prod.fst).zipIdx before.length).foldlM (bindParam (text :: (before ++ pairs.map Prod.snd ++ more))) map =
      .ok (PutAll.putAll Prod.fst Prod.snd map pairs) := by
  induction pairs generalizing before map with
  | nil => rfl
  | cons pair pairs ih =>
    have here : bindParam (text :: (before ++ (pair :: pairs).map Prod.snd ++ more)) map (pair.1, before.length) =
        .ok (map.insert pair.1 pair.2) := by simp [bindParam]
    have later := ih (before ++ [pair.2]) (map.insert pair.1 pair.2)
    have same : before ++ [pair.2] ++ pairs.map Prod.snd ++ more = before ++ (pair :: pairs).map Prod.snd ++ more := by simp
    rw [same, List.length_append] at later
    have first : (pair :: pairs).map Prod.fst = pair.1 :: pairs.map Prod.fst := rfl
    rw [first, List.zipIdx_cons, List.foldlM_cons, here]
    exact later

theorem bindParams_pairs (pairs : List (List Char × List Char)) (more : List (List Char)) :
    bindParams (pairs.map Prod.fst) (text :: (pairs.map Prod.snd ++ more)) = .ok (params pairs) :=
  bindParam_foldlM pairs [] more ∅

/-- Parameters of one name have one text. -/
def Consistent (pairs : List (List Char × List Char)) : Prop := ∀ p ∈ pairs, ∀ q ∈ pairs, p.1 = q.1 → p.2 = q.2

theorem consistent_iff {pairs : List (List Char × List Char)} :
    (∀ p ∈ pairs, (params pairs).lookup p.1 = some p.2) ↔ Consistent pairs := by
  constructor
  · intro all p member q other same
    have found := all p member
    rw [same, all q other] at found
    exact (Option.some.inj found).symm
  · intro consistent p member
    have present : p.1 ∈ params pairs := (PutAll.mem_putAll_empty p.1).mpr ⟨p, member, rfl⟩
    obtain ⟨value, found⟩ := Option.isSome_iff_exists.mp (AList.lookup_isSome.mpr present)
    obtain ⟨q, other, same, rfl⟩ := PutAll.lookup_putAll_empty found
    exact found.trans (congrArg some (consistent q other p member same))

end Bind

end Routing
