import TrafficControl.Lib.FirstMatch
import TrafficControl.Lib.JsonText
import TrafficControl.Lib.MachineInt

set_option autoImplicit false

-- The document that the astats plugin answers with, and what Traffic Monitor reads from it.
namespace Astats

open CStrings JsonText

def SYSTEM_RECORD_TYPE : BitVec 32 := 0x100

structure stats_state where
  globals : List (List Char)
  interfaceName : Option (List Char)
  recordTypes : BitVec 32

def parseGlobals (str : List Char) : List (List Char) := tokens [';'] str

-- The key is looked for anywhere in the argument, its value behind as many characters as the key has.
def fillArgument (my_state : stats_state) (arg : List Char) : stats_state :=
  if (strstr "application=".toList arg).isSome then { my_state with globals := parseGlobals (arg.drop 12) }
  else if (strstr "inf.name=".toList arg).isSome then { my_state with interfaceName := some (arg.drop 9) }
  else if (strstr "record.types=".toList arg).isSome then { my_state with recordTypes := BitVec.ofInt 32 (strtol 16 (arg.drop 13)) }
  else my_state

def stats_fillState (my_state : stats_state) (query : List Char) : stats_state := (tokens ['&'] query).foldl fillArgument my_state

/-- What is printed, and its conversion. -/
inductive Argument where
  | u64 (v : BitVec 64)
  | d (v : BitVec 32)
  | s (v : List Char)

def Argument.printed : Argument → List Char
  | u64 v => decimal v.toNat
  | d v => decimal v.toInt
  | s v => '"' :: v ++ ['"']

def line (a : List Char) (v : Argument) : List Char := "   \"".toList ++ a ++ "\": ".toList ++ v.printed ++ ",\n".toList

-- What does not fit in the buffer is left out.
def APPEND_STAT (a : List Char) (v : Argument) : List Char := if (line a v).length < 3048 then line a v else []

inductive TSRecordData where
  | counter (v : BitVec 64)
  | int (v : BitVec 64)
  | string (v : List Char)

def TSRecordData.argument : TSRecordData → Argument
  | counter v => .u64 v
  | int v => .u64 v
  | string v => .s v

structure TSRecord where
  name : List Char
  datum : TSRecordData

def stats_state.keeps (my_state : stats_state) (name : List Char) : Bool :=
  my_state.globals = [] || my_state.globals.any fun word => (strstr word name).isSome

def json_out_stat (my_state : stats_state) (r : TSRecord) : List Char :=
  if my_state.keeps r.name then APPEND_STAT r.name r.datum.argument else []

inductive SystemFile where
  | missing
  | failing
  | content (bytes : List Char)

/-- There is no result where the NUL is written outside of the buffer. -/
def getFile (bufferSize : Nat) : SystemFile → Option (List Char)
  | .missing => some []
  | .failing => none
  | .content bytes => if bytes.length < bufferSize then some (bytes.takeWhile (· ≠ '\x00')) else none

structure SystemState where
  files : List Char → SystemFile
  configReloadRequests : BitVec 32
  lastReloadRequest : BitVec 64
  configReloads : BitVec 32
  lastReload : BitVec 64
  astatsLoad : BitVec 64
  version : List Char

def bsize : Nat := 2024

section System

variable (system : SystemState)

def readFile (filename : List Char) : Option (List Char) := getFile bsize (system.files filename)

-- NULL is printed as `(null)`.
def classFile (inf : Option (List Char)) (file : String) : List Char :=
  ("/sys/class/net/".toList ++ inf.getD "(null)".toList ++ file.toList).take 255

def getSpeed (inf : Option (List Char)) : Option (BitVec 32) :=
  (readFile system (classFile inf "/operstate")).bind fun str =>
    if (strstr "up".toList str).isSome then
      (readFile system (classFile inf "/speed")).map fun str => BitVec.ofInt 32 (strtol 10 str)
    else some 0

def firstLine (str : List Char) : List Char := str.takeWhile (· ≠ '\n')

def systemStats (interface : Option (List Char)) : Option (List (List Char × Argument)) :=
  (getSpeed system interface).bind fun speed => (readFile system "/proc/net/dev".toList).bind fun dev =>
    (readFile system "/proc/loadavg".toList).map fun loadavg =>
      [("inf.name".toList, .s (interface.getD "(null)".toList)), ("inf.speed".toList, .d speed)] ++
        ((interface.bind fun inf => strstr inf dev).map fun str => ("proc.net.dev".toList, Argument.s (firstLine str))).toList ++
        [("proc.loadavg".toList, .s (firstLine loadavg)), ("configReloadRequests".toList, .d system.configReloadRequests),
          ("lastReloadRequest".toList, .u64 system.lastReloadRequest), ("configReloads".toList, .d system.configReloads),
          ("lastReload".toList, .u64 system.lastReload), ("astatsLoad".toList, .u64 system.astatsLoad)]

variable (dump : BitVec 32 → List TSRecord)

def atsObject (my_state : stats_state) : List Char :=
  "\x7b \"ats\": \x7b\n".toList ++ (dump my_state.recordTypes).flatMap (json_out_stat my_state) ++ "   \"server\": \"".toList ++ system.version ++
    "\"\n".toList ++ "  \x7d".toList

def json_out_stats (my_state : stats_state) : Option (List Char) :=
  if my_state.recordTypes &&& SYSTEM_RECORD_TYPE ≠ 0 then
    (systemStats system my_state.interfaceName).map fun stats =>
      atsObject system dump my_state ++ ",\n \"system\": \x7b\n".toList ++ stats.flatMap (fun stat => APPEND_STAT stat.1 stat.2) ++
        "\"something\": \"here\"".toList ++ "\n  \x7d".toList ++ "\n\x7d\n".toList
  else some (atsObject system dump my_state ++ "\n\x7d\n".toList)

/-- The answer to a query, with the record types of the configuration. -/
def answer (recordTypes : BitVec 32) (query : List Char) : Option (List Char) :=
  json_out_stats system dump (stats_fillState ⟨[], none, recordTypes⟩ query)

end System

/-- The value that a record has. -/
def Denotes : Json → TSRecordData → Prop
  | .number text, .counter v => integer text = some v.toInt
  | .number text, .int v => integer text = some v.toInt
  | .string text, .string v => text = v
  | _, _ => False

/-- A number that Traffic Monitor reads as a float of the same value. -/
def TSRecordData.Double : TSRecordData → Prop
  | counter v => MachineInt.toDouble v.toInt = v.toInt
  | int v => MachineInt.toDouble v.toInt = v.toInt
  | string _ => True

-- The text behind the last `application=` that begins an argument.
def applications (query : List Char) : List (List Char) := (tokens ['&'] query).filter fun arg => "application=".toList.isPrefixOf arg

def words (query : List Char) : List (List Char) := (applications query).getLast?.elim [] fun arg => tokens [';'] (arg.drop 12)

/-- The records that a query selects: all, or those whose name has one of the words in it. -/
def Selected (query name : List Char) : Prop := words query = [] ∨ ∃ word ∈ words query, word <:+: name

/-- The members of an object give a record its value, whichever of them is taken. -/
def Maps (members : List (List Char × Json)) (r : TSRecord) : Prop :=
  (∃ v, (r.name, v) ∈ members) ∧ (∀ v, (r.name, v) ∈ members → Denotes v r.datum) ∧ r.datum.Double

/-- A document that gives the selected records their values and no others, except for the version. -/
def Decodes (records : List TSRecord) (query text : List Char) : Prop :=
  IsUtf8 text ∧ ∃ doc members, JsonText.parse text = some (.object doc) ∧
    (doc.filter fun member => member.1 = "ats".toList) = [("ats".toList, .object members)] ∧
    (∀ r ∈ records, Selected query r.name → Maps members r) ∧
    ∀ member ∈ members, member.1 = "server".toList ∨ ∃ r ∈ records, Selected query r.name ∧ r.name = member.1

section Selection

variable {needle s name query : List Char} {my_state : stats_state}

theorem strstr_isSome : (strstr needle s).isSome = true ↔ needle <:+: s := by
  induction s with
  | nil =>
    rw [strstr, List.infix_nil]
    split_ifs with empty
    · exact iff_of_true rfl empty
    · exact iff_of_false Bool.false_ne_true empty
  | cons c s ih =>
    rw [strstr, List.infix_cons_iff]
    split_ifs with here
    · exact iff_of_true rfl (Or.inl (List.isPrefixOf_iff_prefix.mp here))
    · rw [ih, or_iff_right fun starts => here (List.isPrefixOf_iff_prefix.mpr starts)]

/-- The arguments that the key is found in. -/
def found (query : List Char) : List (List Char) := (tokens ['&'] query).filter fun arg => (strstr "application=".toList arg).isSome

theorem globals_fillState (my_state : stats_state) (args : List (List Char)) : (args.foldl fillArgument my_state).globals =
    (args.filter fun arg => (strstr "application=".toList arg).isSome).getLast?.elim my_state.globals fun arg => parseGlobals (arg.drop 12) := by
  induction args generalizing my_state with
  | nil => rfl
  | cons arg args ih =>
    rw [List.foldl_cons, ih, List.filter_cons]
    split_ifs with here
    · have filled : (fillArgument my_state arg).globals = parseGlobals (arg.drop 12) := by rw [fillArgument, if_pos here]
      rw [List.getLast?_cons, filled]
      cases (args.filter fun arg => (strstr "application=".toList arg).isSome).getLast? <;> rfl
    · have kept : (fillArgument my_state arg).globals = my_state.globals := by
        rw [fillArgument, if_neg here]
        split_ifs <;> rfl
      rw [kept]

/-- Where the key begins the last argument that it is found in, the kept records are the selected ones. -/
theorem keeps_iff {recordTypes : BitVec 32} (begins : ∀ arg ∈ (found query).getLast?, "application=".toList <+: arg) :
    (stats_fillState ⟨[], none, recordTypes⟩ query).keeps name = true ↔ Selected query name := by
  have prefixed : (applications query).getLast? = (found query).getLast? := by
    have both : applications query = (found query).filter fun arg => "application=".toList.isPrefixOf arg := by
      unfold applications found
      rw [List.filter_filter]
      refine List.filter_congr fun arg _ => ?_
      cases starts : "application=".toList.isPrefixOf arg with
      | false => rfl
      | true => exact (strstr_isSome.mpr (List.isPrefixOf_iff_prefix.mp starts).isInfix).symm
    rcases List.eq_nil_or_concat (found query) with none | ⟨front, arg, split⟩
    · rw [both, none]
      rfl
    · rw [List.concat_eq_append] at split
      rw [both, split, List.filter_append]
      rw [split] at begins
      have starts := List.isPrefixOf_iff_prefix.mpr (begins arg (by simp))
      rw [List.filter_cons, if_pos starts]
      simp
  have globals : (stats_fillState ⟨[], none, recordTypes⟩ query).globals = words query := by
    unfold words
    rw [prefixed]
    exact globals_fillState _ _
  unfold stats_state.keeps Selected
  simp [globals, strstr_isSome]

end Selection

section Lines

variable {a : List Char} {v : Argument} {entries : List (List Char × Argument)} {members : List (List Char × Json)} {outer : List Frame}

def Argument.token : Argument → Token
  | u64 v => .number (decimal v.toNat)
  | d v => .number (decimal v.toInt)
  | s v => .string v

def Argument.value : Argument → Json
  | u64 v => .number (decimal v.toNat)
  | d v => .number (decimal v.toInt)
  | s v => .string v

def Argument.Clean : Argument → Prop
  | s v => PlainText v
  | _ => True

theorem simple_argument (v : Argument) : Simple v.token v.value := by
  cases v with
  | u64 v => exact .number _
  | d v => exact .number _
  | s v => exact .string _

theorem run_printed (clean : v.Clean) : Lexer.between.run (v.printed ++ [',']) = some ([v.token, .comma], .between) := by
  cases v with
  | u64 v => exact run_decimal _
  | d v => exact run_decimal _
  | s v => exact run_append_of (run_quoted clean) rfl

/-- The part of a line before its value. -/
theorem run_name (name : PlainText a) : Lexer.between.run ("   \"".toList ++ a ++ "\": ".toList) = some ([.string a, .colon], .between) := by
  have split : "   \"".toList ++ a ++ "\": ".toList = "   ".toList ++ (('"' :: a ++ ['"']) ++ ": ".toList) := by simp
  have spaces : Lexer.between.run "   ".toList = some ([], .between) := rfl
  have colon : Lexer.between.run ": ".toList = some ([.colon], .between) := rfl
  rw [split]
  exact run_append_of spaces (run_append_of (run_quoted name) colon)

theorem run_line (name : PlainText a) (clean : v.Clean) : Lexer.between.run (line a v) = some (memberTokens a v.token, .between) := by
  have split : line a v = ("   \"".toList ++ a ++ "\": ".toList) ++ ((v.printed ++ [',']) ++ ['\n']) := by simp [line]
  rw [split]
  exact run_append_of (run_name name) (run_append_of (run_printed clean) rfl)

theorem run_lines (clean : ∀ e ∈ entries, PlainText e.1 ∧ e.2.Clean) : Lexer.between.run (entries.flatMap fun e => line e.1 e.2) =
    some (entries.flatMap fun e => memberTokens e.1 e.2.token, .between) := by
  induction entries with
  | nil => rfl
  | cons e entries ih =>
    obtain ⟨name, value⟩ := clean e List.mem_cons_self
    rw [List.flatMap_cons, List.flatMap_cons]
    exact run_append_of (run_line name value) (ih fun e member => clean e (List.mem_cons_of_mem _ member))

theorem foldlM_entries : (entries.flatMap fun e => memberTokens e.1 e.2.token).foldlM Reader.step (.beforeName members outer) =
    some (.beforeName (members ++ entries.map fun e => (e.1, e.2.value)) outer) := by
  induction entries generalizing members with
  | nil => rw [List.flatMap_nil, List.map_nil, List.append_nil]; rfl
  | cons e entries ih =>
    have later := @ih (members ++ [(e.1, e.2.value)])
    rw [List.append_assoc, List.singleton_append] at later
    rw [List.flatMap_cons, List.foldlM_append, foldlM_member (simple_argument e.2), List.map_cons]
    exact later

/-- The first member of an object is read like the others. -/
theorem foldlM_object (name : List Char) (rest : List Token) :
    ((entries.flatMap fun e => memberTokens e.1 e.2.token) ++ .string name :: rest).foldlM Reader.step (.firstMember outer) =
      (.string name :: rest).foldlM Reader.step (.beforeName (entries.map fun e => (e.1, e.2.value)) outer) := by
  have begun : ((entries.flatMap fun e => memberTokens e.1 e.2.token) ++ .string name :: rest).foldlM Reader.step (.firstMember outer) =
      ((entries.flatMap fun e => memberTokens e.1 e.2.token) ++ .string name :: rest).foldlM Reader.step (.beforeName [] outer) := by
    cases entries <;> rfl
  rw [begun, List.foldlM_append, foldlM_entries]
  rfl

theorem isUtf8_decimal (n : Int) : IsUtf8 (decimal n) := by
  refine isUtf8_ascii fun c member => ?_
  unfold decimal at member
  rcases List.mem_append.mp member with sign | digit
  · split_ifs at sign
    · rw [List.mem_singleton.mp sign]
      decide
    · cases sign
  · have isDigit := toDigits_digit c digit
    rw [Char.isDigit, Bool.and_eq_true, decide_eq_true_iff, decide_eq_true_iff] at isDigit
    exact Nat.lt_of_le_of_lt isDigit.2 (by decide)

theorem isUtf8_line (name : IsUtf8 a) (value : ∀ text, v = .s text → IsUtf8 text) : IsUtf8 (line a v) := by
  have printed : IsUtf8 v.printed := by
    cases v with
    | u64 v => exact isUtf8_decimal _
    | d v => exact isUtf8_decimal _
    | s v =>
      have quote : IsUtf8 ['"'] := isUtf8_ascii (by decide +kernel)
      exact (quote.append (value v rfl)).append quote
  exact ((((isUtf8_ascii (by decide +kernel)).append name).append (isUtf8_ascii (by decide +kernel))).append printed).append (isUtf8_ascii (by decide +kernel))

end Lines

section Document

variable {system : SystemState} {dump : BitVec 32 → List TSRecord} {my_state : stats_state} {entries : List (List Char × Argument)}

/-- What fits in the buffer. -/
def printed (entries : List (List Char × Argument)) : List (List Char × Argument) := entries.filter fun e => (line e.1 e.2).length < 3048

def recordEntries (my_state : stats_state) (records : List TSRecord) : List (List Char × Argument) :=
  (records.filter fun r => my_state.keeps r.name).map fun r => (r.name, r.datum.argument)

theorem flatMap_append_stat : (entries.flatMap fun e => APPEND_STAT e.1 e.2) = (printed entries).flatMap fun e => line e.1 e.2 := by
  induction entries with
  | nil => rfl
  | cons e entries ih =>
    rw [List.flatMap_cons, ih, printed, printed, List.filter_cons, APPEND_STAT]
    by_cases fits : (line e.1 e.2).length < 3048
    · rw [if_pos fits, if_pos (decide_eq_true fits), List.flatMap_cons]
    · rw [if_neg fits, if_neg fun true => fits (of_decide_eq_true true), List.nil_append]

theorem flatMap_json_out_stat (records : List TSRecord) :
    records.flatMap (json_out_stat my_state) = (printed (recordEntries my_state records)).flatMap fun e => line e.1 e.2 := by
  rw [← flatMap_append_stat]
  unfold recordEntries
  induction records with
  | nil => rfl
  | cons r records ih =>
    rw [List.flatMap_cons, ih, List.filter_cons, json_out_stat]
    split_ifs
    · rw [List.map_cons, List.flatMap_cons]
    · rw [List.nil_append]

-- The object of the records, with its version.
def atsMembers (system : SystemState) (entries : List (List Char × Argument)) : List (List Char × Json) :=
  (entries.map fun e => (e.1, e.2.value)) ++ [("server".toList, .string system.version)]

def openingTokens : List Token := [.lbrace, .string "ats".toList, .colon, .lbrace]

def atsTokens (system : SystemState) (entries : List (List Char × Argument)) : List Token :=
  openingTokens ++ ((entries.flatMap fun e => memberTokens e.1 e.2.token) ++ [.string "server".toList, .colon, .string system.version, .rbrace])

theorem foldlM_atsTokens : (atsTokens system entries).foldlM Reader.step (.beforeValue []) =
    some (.nextMember [("ats".toList, .object (atsMembers system entries))] []) := by
  have opened : openingTokens.foldlM Reader.step (.beforeValue []) = some (.firstMember [.object [] "ats".toList]) := rfl
  rw [atsTokens, List.foldlM_append, opened]
  exact foldlM_object _ _

theorem run_atsObject (version : PlainText system.version)
    (clean : ∀ e ∈ printed (recordEntries my_state (dump my_state.recordTypes)), PlainText e.1 ∧ e.2.Clean) :
    Lexer.between.run (atsObject system dump my_state) =
      some (atsTokens system (printed (recordEntries my_state (dump my_state.recordTypes))), .between) := by
  have opening : Lexer.between.run "\x7b \"ats\": \x7b\n".toList = some (openingTokens, .between) := rfl
  have server : PlainText "server".toList := by decide
  have ended : Lexer.between.run "\n  \x7d".toList = some ([.rbrace], .between) := rfl
  have split : atsObject system dump my_state = "\x7b \"ats\": \x7b\n".toList ++ ((dump my_state.recordTypes).flatMap (json_out_stat my_state) ++
      (("   \"".toList ++ "server".toList ++ "\": ".toList) ++ (('"' :: system.version ++ ['"']) ++ "\n  \x7d".toList))) := by
    have quote : "   \"server\": \"".toList = ("   \"".toList ++ "server".toList ++ "\": ".toList) ++ ['"'] := rfl
    have closing : "\"\n".toList ++ "  \x7d".toList = ['"'] ++ "\n  \x7d".toList := rfl
    have regroup : ∀ opening lines before version last : List Char, opening ++ lines ++ (before ++ ['"']) ++ version ++ (['"'] ++ last) =
        opening ++ (lines ++ (before ++ (('"' :: version ++ ['"']) ++ last))) := by simp
    unfold atsObject
    rw [List.append_assoc _ "\"\n".toList, closing, quote]
    exact regroup _ _ _ _ _
  rw [split, flatMap_json_out_stat]
  exact run_append_of opening (run_append_of (run_lines clean) (run_append_of (run_name server) (run_append_of (run_quoted version) ended)))

theorem isUtf8_atsObject (version : IsUtf8 system.version)
    (texts : ∀ e ∈ printed (recordEntries my_state (dump my_state.recordTypes)), IsUtf8 (line e.1 e.2)) : IsUtf8 (atsObject system dump my_state) := by
  have opening : IsUtf8 "\x7b \"ats\": \x7b\n".toList := isUtf8_ascii (by decide +kernel)
  have server : IsUtf8 "   \"server\": \"".toList := isUtf8_ascii (by decide +kernel)
  have quote : IsUtf8 "\"\n".toList := isUtf8_ascii (by decide +kernel)
  have ended : IsUtf8 "  \x7d".toList := isUtf8_ascii (by decide +kernel)
  have lines := isUtf8_flatMap texts
  unfold atsObject
  rw [flatMap_json_out_stat]
  exact ((((opening.append lines).append server).append version).append quote).append ended

/-- A text that closes the document behind the object of the records. -/
structure Tail (text : List Char) : Prop where
  utf8 : IsUtf8 text
  read : ∃ tokens later, Lexer.between.run text = some (tokens, .between) ∧ (∀ member ∈ later, member.1 = "system".toList) ∧
    ∀ members, tokens.foldlM Reader.step (.nextMember members []) = some (.done (.object (members ++ later)))

theorem tail_closed : Tail "\n\x7d\n".toList where
  utf8 := isUtf8_ascii (by decide +kernel)
  read := ⟨[.rbrace], [], rfl, fun _ absent => absurd absent List.not_mem_nil, fun members => by rw [List.append_nil]; rfl⟩

def systemTail (entries : List (List Char × Argument)) : List Char :=
  ",\n \"system\": \x7b\n".toList ++ ((entries.flatMap fun e => APPEND_STAT e.1 e.2) ++ ("\"something\": \"here\"".toList ++ ("\n  \x7d".toList ++ "\n\x7d\n".toList)))

theorem tail_system (clean : ∀ e ∈ printed entries, PlainText e.1 ∧ e.2.Clean) (texts : ∀ e ∈ printed entries, IsUtf8 (line e.1 e.2)) :
    Tail (systemTail entries) where
  utf8 := by
    have opening : IsUtf8 ",\n \"system\": \x7b\n".toList := isUtf8_ascii (by decide +kernel)
    have something : IsUtf8 "\"something\": \"here\"".toList := isUtf8_ascii (by decide +kernel)
    have first : IsUtf8 "\n  \x7d".toList := isUtf8_ascii (by decide +kernel)
    have second : IsUtf8 "\n\x7d\n".toList := isUtf8_ascii (by decide +kernel)
    have lines := isUtf8_flatMap texts
    unfold systemTail
    rw [flatMap_append_stat]
    exact opening.append (lines.append (something.append (first.append second)))
  read := by
    have opening : Lexer.between.run ",\n \"system\": \x7b\n".toList = some ([.comma, .string "system".toList, .colon, .lbrace], .between) := rfl
    have something : Lexer.between.run "\"something\": \"here\"".toList = some ([.string "something".toList, .colon, .string "here".toList], .between) := rfl
    have first : Lexer.between.run "\n  \x7d".toList = some ([.rbrace], .between) := rfl
    have second : Lexer.between.run "\n\x7d\n".toList = some ([.rbrace], .between) := rfl
    have run : Lexer.between.run (systemTail entries) = some ([.comma, .string "system".toList, .colon, .lbrace] ++
        ((printed entries).flatMap (fun e => memberTokens e.1 e.2.token) ++
          ([.string "something".toList, .colon, .string "here".toList] ++ ([.rbrace] ++ [.rbrace]))), .between) := by
      unfold systemTail
      rw [flatMap_append_stat]
      exact run_append_of opening (run_append_of (run_lines clean) (run_append_of something (run_append_of first second)))
    refine ⟨_, [("system".toList, .object (((printed entries).map fun e => (e.1, e.2.value)) ++ [("something".toList, .string "here".toList)]))], run,
      fun member same => List.mem_singleton.mp same ▸ rfl, fun members => ?_⟩
    have begun : [Token.comma, .string "system".toList, .colon, .lbrace].foldlM Reader.step (.nextMember members []) =
        some (.firstMember [.object members "system".toList]) := rfl
    rw [List.foldlM_append, begun]
    exact foldlM_object _ _

theorem parse_clean {tail : List Char} (version : PlainText system.version)
    (clean : ∀ e ∈ printed (recordEntries my_state (dump my_state.recordTypes)), PlainText e.1 ∧ e.2.Clean) (closed : Tail tail) :
    ∃ later, (∀ member ∈ later, member.1 = "system".toList) ∧ JsonText.parse (atsObject system dump my_state ++ tail) =
      some (.object (("ats".toList, .object (atsMembers system (printed (recordEntries my_state (dump my_state.recordTypes))))) :: later)) := by
  obtain ⟨rest, later, run, names, read⟩ := closed.read
  refine ⟨later, names, ?_⟩
  have lexed := run_append_of (run_atsObject version clean) run
  rw [JsonText.parse, JsonText.tokens, lexed, Option.bind_some, Lexer.finish, Option.map_some, Option.bind_some, List.append_nil, List.foldlM_append, foldlM_atsTokens]
  exact congrArg (fun reader => reader.bind Reader.result) (read _)

/-- A text that does not stand for itself, in the first line that has one, is read as another text. -/
theorem misread {front back : List (List Char × Argument)} {name text rest : List Char} {doc : List (List Char × Json)}
    (clean : ∀ e ∈ front, PlainText e.1 ∧ e.2.Clean) (named : PlainText name) (special : ¬PlainText text)
    (read : JsonText.parse ("\x7b \"ats\": \x7b\n".toList ++ (((front ++ (name, .s text) :: back).flatMap fun e => line e.1 e.2) ++ rest)) = some (.object doc)) :
    ∃ members later other, doc = ("ats".toList, .object members) :: later ∧ (name, .string other) ∈ members ∧ other ≠ text := by
  obtain ⟨all, lexed, folded⟩ := Option.bind_eq_some_iff.mp read
  obtain ⟨⟨emitted, last⟩, run, ended⟩ := Option.bind_eq_some_iff.mp lexed
  obtain ⟨finished, _, rfl⟩ := Option.map_eq_some_iff.mp ended
  obtain ⟨reader, fold, result⟩ := Option.bind_eq_some_iff.mp folded
  have whole : reader = .done (.object doc) := by
    cases reader <;> cases result
    rfl
  subst whole
  -- The text up to the quote of the value, and what is read of it.
  have opening : Lexer.between.run "\x7b \"ats\": \x7b\n".toList = some (openingTokens, .between) := rfl
  have before := run_append_of opening (run_append_of (run_lines clean) (run_name named))
  have regroup : ∀ opening lines head value after rest : List Char, opening ++ ((lines ++ ((head ++ ('"' :: value ++ ['"']) ++ ",\n".toList) ++ after)) ++ rest) =
      (opening ++ (lines ++ head)) ++ ('"' :: ((value ++ "\",\n".toList) ++ (after ++ rest))) := by simp
  rw [List.flatMap_append, List.flatMap_cons, line, Argument.printed, regroup, run_append, before, Option.bind_some,
    run_silent (show Lexer.between.step '"' = some ([], .string []) from rfl), run_append] at run
  obtain ⟨remaining, value, same⟩ := Option.map_eq_some_iff.mp run
  cases same
  obtain ⟨⟨emitted, next⟩, literal, later⟩ := Option.bind_eq_some_iff.mp value
  obtain ⟨⟨following, _⟩, _, same⟩ := Option.map_eq_some_iff.mp later
  cases same
  obtain ⟨other, tokens, rfl, different⟩ := run_misread special literal
  -- The reader is behind the member with the other text.
  have opened : openingTokens.foldlM Reader.step (.beforeValue []) = some (.firstMember [.object [] "ats".toList]) := rfl
  have reached : (tokens ++ (following ++ finished)).foldlM Reader.step
      (.nextMember ((front.map fun e => (e.1, e.2.value)) ++ [(name, .string other)]) [.object [] "ats".toList]) = some (.done (.object doc)) := by
    have regroup : ∀ (opening lines : List Token) (first second third : Token), opening ++ (lines ++ [first, second]) ++ (third :: tokens ++ following) ++ finished =
        opening ++ (lines ++ first :: second :: third :: (tokens ++ (following ++ finished))) := by simp
    dsimp only at fold
    rw [regroup, List.foldlM_append, opened] at fold
    exact (foldlM_object name _).symm.trans fold
  obtain ⟨more, later, same⟩ := object_of_nested reached
  cases same
  exact ⟨_, later, other, rfl, List.mem_append_left _ (List.mem_append_right _ List.mem_cons_self), different⟩

end Document

section Answers

variable {system : SystemState} {dump : BitVec 32 → List TSRecord} {my_state : stats_state} {records : List TSRecord} {query : List Char}
  {recordTypes : BitVec 32} {r : TSRecord} {datum other : TSRecordData}

-- What the plugin takes from a query.
abbrev asked (recordTypes : BitVec 32) (query : List Char) : stats_state := stats_fillState ⟨[], none, recordTypes⟩ query

def Fits (r : TSRecord) : Prop := (line r.name r.datum.argument).length < 3048

def TSRecordData.NonNegative : TSRecordData → Prop
  | counter v => 0 ≤ v.toInt
  | int v => 0 ≤ v.toInt
  | string _ => True

/-- A record that is printed and read back with its own value. -/
structure Legible (version : List Char) (r : TSRecord) : Prop where
  printed : Fits r ∨ r.name = "server".toList
  server : r.name = "server".toList → r.datum = .string version
  nonNegative : r.datum.NonNegative
  double : r.datum.Double
  plain : ∀ text, r.datum = .string text → PlainText text

/-- The texts of the second object stand for themselves. -/
def SystemFine (system : SystemState) (interface : Option (List Char)) : Prop :=
  ∃ stats, systemStats system interface = some stats ∧ ∀ stat ∈ stats, ∀ text, stat.2 = .s text → PlainText text ∧ IsUtf8 text

/-- Records with proper names and texts, a query whose key is in its place, and a second object that can be read. -/
structure Regular (system : SystemState) (dump : BitVec 32 → List TSRecord) (recordTypes : BitVec 32) (query : List Char) : Prop where
  names : ∀ r ∈ dump (asked recordTypes query).recordTypes, PlainText r.name ∧ IsUtf8 r.name
  texts : ∀ r ∈ dump (asked recordTypes query).recordTypes, ∀ text, r.datum = .string text → IsUtf8 text
  version : PlainText system.version ∧ IsUtf8 system.version
  begins : ∀ arg ∈ (found query).getLast?, "application=".toList <+: arg
  fine : (asked recordTypes query).recordTypes &&& SYSTEM_RECORD_TYPE ≠ 0 →
    SystemFine system (asked recordTypes query).interfaceName

theorem toInt_eq_toNat_iff {v w : BitVec 64} : (v.toNat : Int) = w.toInt ↔ v = w ∧ 0 ≤ w.toInt := by
  constructor
  · intro same
    have positive : 0 ≤ w.toInt := same ▸ Int.natCast_nonneg _
    rw [BitVec.toInt_eq_toNat_cond] at same positive
    split_ifs at same positive
    · exact ⟨BitVec.eq_of_toNat_eq (Int.ofNat_inj.mp same), by rw [BitVec.toInt_eq_toNat_cond]; split_ifs; exact positive⟩
    · have less := w.isLt
      omega
  · rintro ⟨rfl, positive⟩
    rw [BitVec.toInt_eq_toNat_cond] at positive ⊢
    split_ifs at positive ⊢
    · rfl
    · have less := v.isLt
      omega

/-- A printed value is the value of the record that has it, unless it is negative. -/
theorem denotes_value : Denotes other.argument.value datum ↔ other.argument = datum.argument ∧ datum.NonNegative := by
  have number : ∀ v w : BitVec 64, integer (decimal v.toNat) = some w.toInt ↔ Argument.u64 v = Argument.u64 w ∧ 0 ≤ w.toInt := by
    intro v w
    rw [integer_decimal, Option.some_inj, toInt_eq_toNat_iff, Argument.u64.injEq]
  cases other with
  | counter v =>
    cases datum with
    | counter w => exact number v w
    | int w => exact number v w
    | string w => exact iff_of_false id fun both => nomatch both.1
  | int v =>
    cases datum with
    | counter w => exact number v w
    | int w => exact number v w
    | string w => exact iff_of_false id fun both => nomatch both.1
  | string v =>
    cases datum with
    | counter w => exact iff_of_false id fun both => nomatch both.1
    | int w => exact iff_of_false id fun both => nomatch both.1
    | string w => exact ⟨fun same => ⟨congrArg Argument.s same, trivial⟩, fun both => Argument.s.inj both.1⟩

/-- The line of the version, as a record. -/
def server (version : List Char) : TSRecord := ⟨"server".toList, .string version⟩

theorem mem_printed {e : List Char × Argument} : e ∈ printed (recordEntries my_state records) ↔
    ∃ r ∈ records, my_state.keeps r.name = true ∧ Fits r ∧ (r.name, r.datum.argument) = e := by
  unfold printed recordEntries Fits
  rw [List.mem_filter, List.mem_map]
  constructor
  · rintro ⟨⟨r, member, rfl⟩, fits⟩
    obtain ⟨member, kept⟩ := List.mem_filter.mp member
    exact ⟨r, member, kept, of_decide_eq_true fits, rfl⟩
  · rintro ⟨r, member, kept, fits, rfl⟩
    exact ⟨⟨r, List.mem_filter.mpr ⟨member, kept⟩, rfl⟩, decide_eq_true fits⟩

theorem mem_atsMembers {name : List Char} {v : Json} : (name, v) ∈ atsMembers system (printed (recordEntries my_state records)) ↔
    ∃ r, ((r ∈ records ∧ my_state.keeps r.name = true ∧ Fits r) ∨ r = server system.version) ∧ r.name = name ∧ r.datum.argument.value = v := by
  rw [atsMembers, List.mem_append, List.mem_map, List.mem_singleton]
  constructor
  · rintro (⟨e, member, same⟩ | same)
    · obtain ⟨r, dumped, kept, fits, rfl⟩ := mem_printed.mp member
      cases same
      exact ⟨r, Or.inl ⟨dumped, kept, fits⟩, rfl, rfl⟩
    · cases same
      exact ⟨server system.version, Or.inr rfl, rfl, rfl⟩
  · rintro ⟨r, ⟨member, kept, fits⟩ | rfl, rfl, rfl⟩
    · exact Or.inl ⟨_, mem_printed.mpr ⟨r, member, kept, fits, rfl⟩, rfl⟩
    · exact Or.inr rfl

theorem clean_printed (names : ∀ r ∈ records, PlainText r.name) : (∀ e ∈ printed (recordEntries my_state records), PlainText e.1 ∧ e.2.Clean) ↔
    ∀ r ∈ records, my_state.keeps r.name = true → Fits r → ∀ text, r.datum = .string text → PlainText text := by
  constructor
  · intro clean r member kept fits text same
    have value := (clean _ (mem_printed.mpr ⟨r, member, kept, fits, rfl⟩)).2
    rw [same] at value
    exact value
  · intro plain e member
    obtain ⟨r, dumped, kept, fits, rfl⟩ := mem_printed.mp member
    refine ⟨names r dumped, ?_⟩
    have value := plain r dumped kept fits
    show r.datum.argument.Clean
    cases datum : r.datum with
    | counter v => trivial
    | int v => trivial
    | string v => exact value v datum

def systemNames : List (List Char) := ["inf.name".toList, "inf.speed".toList, "proc.net.dev".toList, "proc.loadavg".toList,
  "configReloadRequests".toList, "lastReloadRequest".toList, "configReloads".toList, "lastReload".toList, "astatsLoad".toList]

theorem systemStats_names {interface : Option (List Char)} {stats : List (List Char × Argument)} (read : systemStats system interface = some stats) :
    ∀ stat ∈ stats, stat.1 ∈ systemNames := by
  obtain ⟨speed, _, read⟩ := Option.bind_eq_some_iff.mp read
  obtain ⟨dev, _, read⟩ := Option.bind_eq_some_iff.mp read
  obtain ⟨loadavg, _, rfl⟩ := Option.map_eq_some_iff.mp read
  intro stat member
  cases line : (interface.bind fun inf => strstr inf dev).map fun str => ("proc.net.dev".toList, Argument.s (firstLine str)) with
  | none =>
    rw [line] at member
    simp only [Option.toList_none, List.append_nil, List.cons_append, List.nil_append, List.mem_cons, List.not_mem_nil, or_false] at member
    rcases member with rfl | rfl | rfl | rfl | rfl | rfl | rfl | rfl <;> simp [systemNames]
  | some entry =>
    obtain ⟨str, _, rfl⟩ := Option.map_eq_some_iff.mp line
    rw [line] at member
    simp only [Option.toList_some, List.cons_append, List.nil_append, List.mem_cons, List.not_mem_nil, or_false] at member
    rcases member with rfl | rfl | rfl | rfl | rfl | rfl | rfl | rfl | rfl <;> simp [systemNames]

theorem plain_systemNames : ∀ name ∈ systemNames, PlainText name ∧ Ascii name := by decide +kernel

theorem Regular.answered (regular : Regular system dump recordTypes query) : ∃ tail, Tail tail ∧
    answer system dump recordTypes query = some (atsObject system dump (asked recordTypes query) ++ tail) := by
  have unfolded : answer system dump recordTypes query = json_out_stats system dump (asked recordTypes query) := rfl
  rw [unfolded, json_out_stats]
  split_ifs with types
  · obtain ⟨stats, read, texts⟩ := regular.fine types
    have named : ∀ stat ∈ stats, PlainText stat.1 ∧ IsUtf8 stat.1 := fun stat member =>
      (plain_systemNames _ (systemStats_names read stat member)).imp_right isUtf8_ascii
    refine ⟨systemTail stats, tail_system ?_ ?_, ?_⟩
    · intro e member
      have listed := List.mem_of_mem_filter member
      refine ⟨(named e listed).1, ?_⟩
      have plain := texts e listed
      cases value : e.2 with
      | u64 v => trivial
      | d v => trivial
      | s v => exact (plain v value).1
    · intro e member
      have listed := List.mem_of_mem_filter member
      exact isUtf8_line (named e listed).2 fun text same => (texts e listed text same).2
    · have regroup : ∀ a b c d e f : List Char, a ++ b ++ c ++ d ++ e ++ f = a ++ (b ++ (c ++ (d ++ (e ++ f)))) := by simp
      rw [read, Option.map_some]
      exact congrArg some (regroup _ _ _ _ _ _)
  · exact ⟨_, tail_closed, rfl⟩

theorem Regular.keeps (regular : Regular system dump recordTypes query) {name : List Char} :
    (asked recordTypes query).keeps name = true ↔ Selected query name := keeps_iff regular.begins

/-- Where the printed texts stand for themselves, the document has a member for every printed record. -/
theorem Regular.parsed (regular : Regular system dump recordTypes query) {text : List Char}
    (answered : answer system dump recordTypes query = some text)
    (plain : ∀ r ∈ dump (asked recordTypes query).recordTypes, Selected query r.name → Fits r →
      ∀ text, r.datum = .string text → PlainText text) :
    IsUtf8 text ∧ ∃ later, (∀ member ∈ later, member.1 = "system".toList) ∧ JsonText.parse text = some (.object (("ats".toList,
      .object (atsMembers system (printed (recordEntries (asked recordTypes query)
        (dump (asked recordTypes query).recordTypes))))) :: later)) := by
  obtain ⟨tail, closed, same⟩ := regular.answered
  rw [same] at answered
  cases answered
  refine ⟨(isUtf8_atsObject regular.version.2 fun e member => ?_).append closed.utf8, parse_clean regular.version.1 ?_ closed⟩
  · obtain ⟨r, dumped, _, _, rfl⟩ := mem_printed.mp member
    refine isUtf8_line (regular.names r dumped).2 fun text value => regular.texts r dumped text ?_
    cases datum : r.datum with
    | counter v =>
      rw [datum] at value
      cases value
    | int v =>
      rw [datum] at value
      cases value
    | string v =>
      rw [datum] at value
      cases value
      rfl
  · exact (clean_printed fun r dumped => (regular.names r dumped).1).mpr fun r dumped kept fits =>
      plain r dumped (regular.keeps.mp kept) fits

/-- A document with the values of the records has no text that does not stand for itself. -/
theorem Regular.plain (regular : Regular system dump recordTypes query) {text : List Char}
    (answered : answer system dump recordTypes query = some text)
    (decodes : Decodes (dump (asked recordTypes query).recordTypes) query text) :
    ∀ r ∈ dump (asked recordTypes query).recordTypes, Selected query r.name → Fits r →
      ∀ text, r.datum = .string text → PlainText text := by
  obtain ⟨tail, _, same⟩ := regular.answered
  rw [same] at answered
  cases answered
  obtain ⟨_, doc, members, read, ats, maps, _⟩ := decodes
  have clean : ∀ e ∈ printed (recordEntries (asked recordTypes query)
      (dump (asked recordTypes query).recordTypes)), PlainText e.1 ∧ e.2.Clean := by
    by_contra unclean
    obtain ⟨e, front, back, split, bad, good⟩ := @FirstMatch.exists_isFirst _ (fun e : List Char × Argument => ¬(PlainText e.1 ∧ e.2.Clean)) _
      (by simpa only [not_forall, exists_prop] using unclean)
    have member : e ∈ front ++ e :: back := List.mem_append_right _ List.mem_cons_self
    rw [← split] at member
    obtain ⟨r, dumped, kept, fits, rfl⟩ := mem_printed.mp member
    have named := (regular.names r dumped).1
    cases datum : r.datum with
    | counter v => exact bad ⟨named, by rw [datum]; trivial⟩
    | int v => exact bad ⟨named, by rw [datum]; trivial⟩
    | string text =>
      rw [datum] at bad split
      have regroup : ∀ opening lines server version quote ended tail : List Char, opening ++ lines ++ server ++ version ++ quote ++ ended ++ tail =
          opening ++ (lines ++ (server ++ version ++ quote ++ ended ++ tail)) := by simp
      unfold atsObject at read
      rw [regroup, flatMap_json_out_stat, split] at read
      obtain ⟨misreadMembers, later, other, same, listed, different⟩ :=
        misread (fun e member => not_not.mp (good e member)) named (fun plain => bad ⟨named, plain⟩) read
      rw [same, List.filter_cons, if_pos (decide_eq_true rfl)] at ats
      obtain ⟨same, _⟩ := List.cons.inj ats
      cases same
      have value := (maps r dumped (regular.keeps.mp kept)).2.1 _ listed
      rw [datum] at value
      exact different value
  exact fun r dumped selected => (clean_printed fun r dumped => (regular.names r dumped).1).mp clean r dumped (regular.keeps.mpr selected)

/-- Two records of one name have one value. -/
def OneValue (records : List TSRecord) (query : List Char) : Prop :=
  ∀ r ∈ records, ∀ r' ∈ records, Selected query r.name → r.name = r'.name → r.datum.argument = r'.datum.argument

theorem Regular.readable (regular : Regular system dump recordTypes query) {text : List Char} (answered : answer system dump recordTypes query = some text)
    (decodes : Decodes (dump (asked recordTypes query).recordTypes) query text) :
    (∀ r ∈ dump (asked recordTypes query).recordTypes, Selected query r.name → Legible system.version r) ∧
      OneValue (dump (asked recordTypes query).recordTypes) query := by
  have plain := regular.plain answered decodes
  obtain ⟨_, later, _, parsed⟩ := regular.parsed answered plain
  obtain ⟨_, doc, members, read, ats, maps, _⟩ := decodes
  rw [parsed] at read
  cases read
  rw [List.filter_cons, if_pos (decide_eq_true rfl)] at ats
  obtain ⟨same, _⟩ := List.cons.inj ats
  cases same
  have one : ∀ r ∈ dump (asked recordTypes query).recordTypes, Selected query r.name → ∀ other : TSRecord,
      (r.name, other.datum.argument.value) ∈ atsMembers system (printed (recordEntries (asked recordTypes query)
        (dump (asked recordTypes query).recordTypes))) →
      other.datum.argument = r.datum.argument ∧ r.datum.NonNegative := fun r dumped selected other listed =>
    denotes_value.mp ((maps r dumped selected).2.1 _ listed)
  have version := (@mem_atsMembers system (asked recordTypes query) (dump (asked recordTypes query).recordTypes) "server".toList _).mpr
    ⟨server system.version, Or.inr rfl, rfl, rfl⟩
  have given : ∀ r ∈ dump (asked recordTypes query).recordTypes, r.name = "server".toList → Selected query r.name →
      r.datum = .string system.version := by
    intro r dumped named selected
    obtain ⟨same, _⟩ := one r dumped selected (server system.version) (named ▸ version)
    cases datum : r.datum with
    | counter v => rw [datum] at same; cases same
    | int v => rw [datum] at same; cases same
    | string v => rw [datum] at same; cases same; rfl
  refine ⟨fun r dumped selected => ?_, fun r dumped r' dumped' selected same => ?_⟩
  · obtain ⟨⟨v, listed⟩, _, double⟩ := maps r dumped selected
    obtain ⟨other, source, named, rfl⟩ := mem_atsMembers.mp listed
    obtain ⟨same, nonNegative⟩ := one r dumped selected other listed
    have printed : Fits r ∨ r.name = "server".toList := by
      rcases source with ⟨_, _, fits⟩ | rfl
      · unfold Fits at fits ⊢
        rw [named, same] at fits
        exact Or.inl fits
      · exact Or.inr named.symm
    refine ⟨printed, fun named => given r dumped named selected, nonNegative, double, fun text datum => ?_⟩
    rcases printed with fits | named
    · exact plain r dumped selected fits text datum
    · rw [given r dumped named selected] at datum
      cases datum
      exact regular.version.1
  · obtain ⟨⟨v, listed⟩, _⟩ := maps r dumped selected
    obtain ⟨other, _, _, rfl⟩ := mem_atsMembers.mp listed
    have first := (one r dumped selected other listed).1
    rw [same] at listed selected
    exact first.symm.trans (one r' dumped' selected other listed).1

theorem Regular.decodes (regular : Regular system dump recordTypes query)
    (readable : ∀ r ∈ dump (asked recordTypes query).recordTypes, Selected query r.name → Legible system.version r)
    (unique : OneValue (dump (asked recordTypes query).recordTypes) query) :
    ∃ text, answer system dump recordTypes query = some text ∧ Decodes (dump (asked recordTypes query).recordTypes) query text := by
  obtain ⟨tail, _, answered⟩ := regular.answered
  obtain ⟨utf8, later, names, parsed⟩ := regular.parsed answered fun r dumped selected _ => (readable r dumped selected).plain
  have single : ∀ value, ((("ats".toList, value) :: later).filter fun member => member.1 = "ats".toList) = [("ats".toList, value)] := by
    intro value
    have rest : (later.filter fun member => member.1 = "ats".toList) = [] := by
      refine List.filter_eq_nil_iff.mpr fun member listed => ?_
      rw [names member listed]
      decide
    rw [List.filter_cons, if_pos (decide_eq_true rfl), rest]
  refine ⟨_, answered, utf8, _, _, parsed, single _, ?_, ?_⟩
  · intro r dumped selected
    have readable := readable r dumped selected
    refine ⟨?_, fun v listed => ?_, readable.double⟩
    · rcases readable.printed with fits | named
      · exact ⟨_, mem_atsMembers.mpr ⟨r, Or.inl ⟨dumped, regular.keeps.mpr selected, fits⟩, rfl, rfl⟩⟩
      · exact ⟨_, mem_atsMembers.mpr ⟨server system.version, Or.inr rfl, named.symm, rfl⟩⟩
    · obtain ⟨other, source, named, rfl⟩ := mem_atsMembers.mp listed
      refine denotes_value.mpr ⟨?_, readable.nonNegative⟩
      rcases source with ⟨dumped', _, _⟩ | rfl
      · exact (unique r dumped other dumped' selected named.symm).symm
      · rw [readable.server named.symm]
        rfl
  · intro member listed
    obtain ⟨other, source, named, _⟩ := mem_atsMembers.mp (show (member.1, member.2) ∈ _ from listed)
    rcases source with ⟨dumped, kept, _⟩ | rfl
    · exact Or.inr ⟨other, dumped, regular.keeps.mp kept, named⟩
    · exact Or.inl named.symm

end Answers

end Astats
