import TrafficControl.Lib.Trim
import Mathlib.Data.List.Dedup
import Mathlib.Data.List.Infix

set_option autoImplicit false

-- How a cache compares a file on its disk with the one that Traffic Ops generates for it.
namespace Ort

abbrev Line := List Char

section Lines

def isSpace (c : Char) : Bool := c = ' ' || ('\t' ≤ c && c ≤ '\r')

-- `s/\s+/ /g`, where the flag tells that the letter before was of a run.
def squeeze : Bool → Line → Line
  | _, [] => []
  | within, c :: line =>
    if isSpace c then (if within then squeeze true line else ' ' :: squeeze true line) else c :: squeeze false line

-- `s/word/other/g`, where the number counts the letters that are left of a match.
def substitute (word other : Line) : Nat → Line → Line
  | _, [] => []
  | k + 1, _ :: line => substitute word other k line
  | 0, c :: line =>
    if word.isPrefixOf (c :: line) then other ++ substitute word other (word.length - 1) line else c :: substitute word other 0 line

def contains (word line : Line) : Bool := decide (word <:+: line)

def normalize (line : Line) : Line := Trim.trim isSpace (squeeze false line)

def unencode (line : Line) : Line :=
  substitute "&lt;".toList ['<'] 0 (substitute "&gt;".toList ['>'] 0 (substitute "amp;".toList [] 0 line))

def lines (text : List Char) : List Line := (text.splitOn '\n').map normalize

-- The start of a match of `\s*__RETURN__\s*`, and its length.
def returnLength (text : List Char) : Option Nat :=
  let rest := text.dropWhile isSpace
  if "__RETURN__".toList.isPrefixOf rest then some (text.length - rest.length + 10 + ((rest.drop 10).takeWhile isSpace).length) else none

def breakLines : Nat → List Char → List Char
  | _, [] => []
  | k + 1, _ :: text => breakLines k text
  | 0, c :: text => (returnLength (c :: text)).elim (c :: breakLines 0 text) fun length => '\n' :: breakLines (length - 1) text

/-- What the list of files says of the server. -/
structure Info where
  serverTcpPort : List Char
  serverIpv4 : List Char
deriving DecidableEq

/-- The names of a cache, short and full. -/
structure Host where
  short : String
  full : String
deriving DecidableEq

def Info.fill (info : Info) (host : Host) (result : List Char) : List Char :=
  let ported := if info.serverTcpPort ≠ "80".toList then substitute "__SERVER_TCP_PORT__".toList info.serverTcpPort 0 result
    else substitute ":__SERVER_TCP_PORT__".toList [] 0 result
  let addressed := substitute "__CACHE_IPV4__".toList info.serverIpv4 0 ported
  let named := substitute "__HOSTNAME__".toList host.short.toList 0 addressed
  breakLines 0 (substitute "__FULL_HOSTNAME__".toList host.full.toList 0 named)

-- What is fetched is neither empty nor the number of an error.
def validateResult (result : List Char) : Bool := !(result.length = 3 && result.all Char.isDigit) && !result.isEmpty

def isFloat (line : Line) : Bool := contains "FLOAT".toList line

-- A field that a line does not have is undefined, which compares as the empty text.
def field (n : Nat) (line : Line) : Line := (line.splitOn ' ')[n]?.getD []

end Lines

/-- What the comparison takes from elsewhere: the match against the name of the tool, and the comparison of two numbers. -/
structure Comparison where
  headerComment : Line → Bool
  apart : Line → Line → Bool
  apart_self : ∀ value, apart value value = false

namespace Comparison

variable (c : Comparison)

/-- A comment that is read from the disk. -/
def isHeader (line : Line) : Bool :=
  contains "DO NOT EDIT - Generated for ".toList line || c.headerComment line || contains "12M NOTE:".toList line

-- Here both parts of the first line have to match.
def isOwnHeader (line : Line) : Bool :=
  (contains "DO NOT EDIT - Generated for ".toList line && c.headerComment line) || contains "12M NOTE:".toList line

def scrapeUnencodeText (text : List Char) : List Line := ((lines text).map unencode).filter (· ≠ [])

def openFileGetContents (text : List Char) : List Line :=
  (lines text).filter fun line => !((line.head? = some '#' || line = []) && !c.isHeader line)

-- The value of a record is compared with the values of the list that the record is of.
def drifted (among : List Line) (line : Line) : List Line :=
  (among.filter fun l => field 1 l = field 1 line && field 2 l = field 2 line && c.apart (field 3 line) (field 3 l)).map fun _ => line

def diskLinesMissing (dbFileLines diskFileLines : List Line) : List Line :=
  dbFileLines.flatMap fun line =>
    if line ∈ diskFileLines then []
    else if isFloat line then c.drifted dbFileLines.dedup line
    else if c.isOwnHeader line then (if diskFileLines = [] then [line] else [])
    else [line]

def dbLinesMissing (dbFileLines diskFileLines : List Line) : List Line :=
  diskFileLines.flatMap fun line =>
    if line ∈ dbFileLines then []
    else if isFloat line then c.drifted diskFileLines line
    else if c.isOwnHeader line then []
    else [line]

def diffFileLines (dbFileLines diskFileLines : List Line) : List Line × List Line :=
  (c.dbLinesMissing dbFileLines diskFileLines, c.diskLinesMissing dbFileLines diskFileLines)

-- A file that is not there has no lines.
def diskFileLines (disk : Option (List Char)) : List Line := disk.elim [] c.openFileGetContents

/-- The test of `process_cfg_file`. -/
def changeNeeded (cfgFile : String) (result : List Char) (disk : Option (List Char)) : Bool :=
  let db := scrapeUnencodeText result
  let onDisk := c.diskFileLines disk
  let missing := c.diffFileLines db onDisk
  (cfgFile = "logs_xml.config" && onDisk ≠ db) || !missing.2.isEmpty || !missing.1.isEmpty

end Comparison

section Blindness

variable {c : Comparison} {cfgFile : String} {db onDisk : List Line} {result : List Char} {disk : Option (List Char)}

/-- Records of one name and type have one value. -/
def Comparison.Steady (c : Comparison) (l : List Line) : Prop :=
  ∀ a ∈ l, ∀ b ∈ l, isFloat a = true → field 1 b = field 1 a → field 2 b = field 2 a → c.apart (field 3 a) (field 3 b) = false

/-- A line of which a difference is seen. -/
def Comparison.Compared (c : Comparison) (line : Line) : Prop := isFloat line = false ∧ c.isOwnHeader line = false

theorem steady_drifted (steady : c.Steady db) {among : List Line} (part : ∀ l ∈ among, l ∈ db) {line : Line} (member : line ∈ db)
    (float : isFloat line = true) : c.drifted among line = [] := by
  rw [Comparison.drifted, List.map_eq_nil_iff, List.filter_eq_nil_iff]
  rintro l inside both
  simp only [Bool.and_eq_true, decide_eq_true_eq] at both
  exact Bool.false_ne_true ((steady line member l (part l inside) float both.1.1 both.1.2).symm.trans both.2)

theorem diskLinesMissing_nil (steady : c.Steady db) : c.diskLinesMissing db onDisk = [] ↔
    (∀ line ∈ db, c.Compared line → line ∈ onDisk) ∧ (onDisk = [] → ∀ line ∈ db, isFloat line = true) := by
  rw [Comparison.diskLinesMissing, List.flatMap_eq_nil_iff]
  constructor
  · intro none
    refine ⟨fun line member compared => ?_, fun empty line member => ?_⟩
    · by_contra missing
      have listed := none line member
      rw [if_neg missing, if_neg (by simp [compared.1]), if_neg (by simp [compared.2])] at listed
      exact List.cons_ne_nil _ _ listed
    · by_contra float
      have listed := none line member
      rw [if_neg (by simp [empty]), if_neg float, if_pos empty, ite_self] at listed
      exact List.cons_ne_nil _ _ listed
  · rintro ⟨found, empty⟩ line member
    by_cases inside : line ∈ onDisk
    · rw [if_pos inside]
    rw [if_neg inside]
    by_cases float : isFloat line = true
    · rw [if_pos float]
      exact steady_drifted steady (fun l => List.mem_dedup.mp) member float
    rw [if_neg float]
    by_cases header : c.isOwnHeader line = true
    · rw [if_pos header, if_neg fun none => float (empty none line member)]
    · exact absurd (found line member ⟨Bool.eq_false_iff.mpr float, Bool.eq_false_iff.mpr header⟩) inside

theorem dbLinesMissing_nil (steady : c.Steady onDisk) : c.dbLinesMissing db onDisk = [] ↔
    ∀ line ∈ onDisk, c.Compared line → line ∈ db := by
  rw [Comparison.dbLinesMissing, List.flatMap_eq_nil_iff]
  constructor
  · intro none line member compared
    by_contra missing
    have listed := none line member
    rw [if_neg missing, if_neg (by simp [compared.1]), if_neg (by simp [compared.2])] at listed
    exact List.cons_ne_nil _ _ listed
  · intro found line member
    by_cases inside : line ∈ db
    · rw [if_pos inside]
    rw [if_neg inside]
    by_cases float : isFloat line = true
    · rw [if_pos float]
      exact steady_drifted steady (fun l own => own) member float
    rw [if_neg float]
    by_cases header : c.isOwnHeader line = true
    · rw [if_pos header]
    · exact absurd (found line member ⟨Bool.eq_false_iff.mpr float, Bool.eq_false_iff.mpr header⟩) inside

theorem changeNeeded_eq_false : c.changeNeeded cfgFile result disk = false ↔
    (cfgFile = "logs_xml.config" → c.diskFileLines disk = Comparison.scrapeUnencodeText result) ∧
      c.diskLinesMissing (Comparison.scrapeUnencodeText result) (c.diskFileLines disk) = [] ∧
      c.dbLinesMissing (Comparison.scrapeUnencodeText result) (c.diskFileLines disk) = [] := by
  simp only [Comparison.changeNeeded, Comparison.diffFileLines, Bool.or_eq_false_iff, Bool.and_eq_false_iff, decide_eq_false_iff_not,
    Bool.not_eq_false', List.isEmpty_iff, ne_eq, not_not, ← imp_iff_not_or, and_assoc]

/-- A file is left as it is exactly when its lines are those of Traffic Ops, whatever their order, their number, and the values of the
records that are numbers. -/
theorem left_alone_iff (dbSteady : c.Steady (Comparison.scrapeUnencodeText result)) (diskSteady : c.Steady (c.diskFileLines disk)) :
    c.changeNeeded cfgFile result disk = false ↔
      (∀ line, c.Compared line → (line ∈ Comparison.scrapeUnencodeText result ↔ line ∈ c.diskFileLines disk)) ∧
      (c.diskFileLines disk = [] → ∀ line ∈ Comparison.scrapeUnencodeText result, isFloat line = true) ∧
      (cfgFile = "logs_xml.config" → c.diskFileLines disk = Comparison.scrapeUnencodeText result) := by
  rw [changeNeeded_eq_false, diskLinesMissing_nil dbSteady, dbLinesMissing_nil diskSteady]
  constructor
  · rintro ⟨same, ⟨toDisk, empty⟩, toDb⟩
    exact ⟨fun line compared => ⟨fun member => toDisk line member compared, fun member => toDb line member compared⟩, empty, same⟩
  · rintro ⟨lines, empty, same⟩
    exact ⟨same, ⟨fun line member compared => (lines line compared).mp member, empty⟩, fun line member compared => (lines line compared).mpr member⟩

def sampleComparison : Comparison := ⟨contains "Traffic Ops".toList, fun a b => a ≠ b, fun _ => decide_eq_false fun other => other rfl⟩

def sampleRecords : List Char := "# DO NOT EDIT - Generated for edge by Traffic Ops\nCONFIG a INT 1\nCONFIG b FLOAT 0.5\n".toList

-- Other lines, in another order, and another value.
def otherRecords : List Char := "# DO NOT EDIT - Generated for edge by Traffic Ops (old)\nCONFIG b FLOAT 0.9\nCONFIG a INT 1\nCONFIG a INT 1\n".toList

theorem left_alone_iff_records :
    (∀ line, sampleComparison.Compared line →
      (line ∈ Comparison.scrapeUnencodeText sampleRecords ↔ line ∈ sampleComparison.diskFileLines (some otherRecords))) ∧
    (sampleComparison.diskFileLines (some otherRecords) = [] → ∀ line ∈ Comparison.scrapeUnencodeText sampleRecords, isFloat line = true) ∧
    ("records.config" = "logs_xml.config" →
      sampleComparison.diskFileLines (some otherRecords) = Comparison.scrapeUnencodeText sampleRecords) := by
  have dbSteady : sampleComparison.Steady (Comparison.scrapeUnencodeText sampleRecords) := by
    unfold Comparison.Steady
    decide +kernel
  have diskSteady : sampleComparison.Steady (sampleComparison.diskFileLines (some otherRecords)) := by
    unfold Comparison.Steady
    decide +kernel
  exact (left_alone_iff dbSteady diskSteady).mp (by decide +kernel)

end Blindness

section Settling

variable {c : Comparison} {cfgFile : String} {text : List Char}

/-- A text that decoding leaves as it is. -/
def Plain (text : List Char) : Prop := ∀ line ∈ lines text, unencode line = line

-- A comment that is not read from the disk.
def Comparison.Remark (c : Comparison) (line : Line) : Prop := line.head? = some '#' ∧ c.isHeader line = false

theorem scrape_plain (plain : Plain text) : Comparison.scrapeUnencodeText text = (lines text).filter (· ≠ []) := by
  rw [Comparison.scrapeUnencodeText, List.map_congr_left plain, List.map_id']

theorem header_of_own {line : Line} (own : c.isOwnHeader line = true) : c.isHeader line = true := by
  simp only [Comparison.isOwnHeader, Bool.or_eq_true, Bool.and_eq_true] at own
  simp only [Comparison.isHeader, Bool.or_eq_true]
  exact own.imp_left fun both => Or.inl both.1

theorem isHeader_nil (named : c.headerComment [] = false) : c.isHeader [] = false := by
  rw [Comparison.isHeader, named]
  decide

theorem onDisk_plain (named : c.headerComment [] = false) (clean : ∀ line ∈ lines text, ¬c.Remark line) :
    c.openFileGetContents text = (lines text).filter (· ≠ []) := by
  refine List.filter_congr fun line member => ?_
  by_cases empty : line = []
  · subst empty
    simp [isHeader_nil named]
  · by_cases comment : line.head? = some '#'
    · have header : c.isHeader line = true := Bool.not_eq_false _ ▸ fun none => clean line member ⟨comment, none⟩
      simp [empty, header]
    · simp [empty, comment]

end Settling

end Ort
