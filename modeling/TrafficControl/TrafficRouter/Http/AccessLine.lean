import TrafficControl.TrafficRouter.Http.HTTPAccessEventBuilder

set_option autoImplicit false

namespace TrafficControl.TrafficRouter.HTTPAccessEventBuilder

open KeyValueLine TimeLayout

/-- The fields of a line; the first one has no key and is the time. -/
def readLine (line : String) : Option (List (String × String)) :=
  (readItems line.toList.length (line.toList.dropWhile (· ≠ ' '))).map fun fields =>
    ("time", String.ofList (line.toList.takeWhile (· ≠ ' '))) :: fields.map fun field => (String.ofList field.1, String.ofList field.2)

def token (key value : String) : Item := ⟨key.toList, value.toList, false⟩

def inQuotes (key value : String) : Item := ⟨key.toList, value.toList, true⟩

theorem text_token (key value : String) : (token key value).text = key.toList ++ '=' :: value.toList := rfl

theorem text_inQuotes (key value : String) : (inQuotes key value).text = key.toList ++ '=' :: '"' :: (value.toList ++ ['"']) := rfl

section Fields

variable (this : HTTPAccessRecord) (nanoTime : Int)

def headerItems : List Item :=
  match this.requestHeaders with
  | none => [inQuotes "rh" "-"]
  | some [] => [inQuotes "rh" "-"]
  | some entries => (entries.filterMap headerText).map (inQuotes "rh")

def responseItems : List Item :=
  if this.responseCode ≠ -1 then
    [token "pssc" (padded 0 this.responseCode), token "ttms" (milliseconds (nanoTime - this.requestNanoTime))]
  else []

def items : List Item :=
  [token "qtype" "HTTP", token "chi" (chi this), token "rhi" (rhi this), inQuotes "url" (formatRequest this.request),
    token "cqhm" (formatObject this.request.getMethod), token "cqhv" (formatObject this.request.getProtocol),
    token "rtype" (resultType this), inQuotes "rloc" (rloc this), token "rdtl" (resultDetails this),
    inQuotes "rerr" (formatObject this.rerr), inQuotes "rgb" (formatObject (this.regionalGeoResult.map RegionalGeoResult.toString))] ++
  responseItems this nanoTime ++
  [inQuotes "rurl" (formatObject this.responseURL), inQuotes "rurls" (responseURLs this)] ++ headerItems this

/-- The fields of a record, in their order. -/
def fields : List (String × String) :=
  ("time", timeString this) :: (items this nanoTime).map fun item => (String.ofList item.key, String.ofList item.value)

end Fields

section Line

variable {this : HTTPAccessRecord} {nanoTime : Int}

theorem toList_rh (texts : List String) : ' ' :: (" ".intercalate (texts.map fun text => "rh=\"" ++ text ++ "\"")).toList =
    (texts.map (inQuotes "rh")).flatMap (fun item => ' ' :: item.text) ++ if texts = [] then [' '] else [] := by
  cases texts with
  | nil => rfl
  | cons text texts =>
    rw [if_neg (List.cons_ne_nil text texts), List.append_nil]
    induction texts generalizing text with
    | nil =>
      simp only [List.map_cons, List.map_nil, String.intercalate_singleton, String.toList_append, List.flatMap_cons, List.flatMap_nil,
        text_inQuotes, List.append_assoc, List.append_nil]
      rfl
    | cons next texts ih =>
      rw [@List.map_cons _ _ (inQuotes "rh"), List.flatMap_cons, ← ih next, List.map_cons, List.map_cons, String.intercalate_cons_cons]
      simp only [String.toList_append, text_inQuotes, List.append_assoc, List.cons_append]
      rfl

theorem toList_formatRequestHeaders (this : HTTPAccessRecord) : ' ' :: (formatRequestHeaders this.requestHeaders).toList =
    (headerItems this).flatMap (fun item => ' ' :: item.text) ++ if headerItems this = [] then [' '] else [] := by
  unfold formatRequestHeaders headerItems
  cases this.requestHeaders with
  | none => rfl
  | some entries =>
    cases entries with
    | nil => rfl
    | cons entry entries =>
      dsimp only
      rw [toList_rh]
      simp only [List.map_eq_nil_iff]

/-- The line is the time and the items. -/
theorem toList_create : (create this nanoTime).toList = (timeString this).toList ++
    ((items this nanoTime).flatMap (fun item => ' ' :: item.text) ++ if headerItems this = [] then [' '] else []) := by
  unfold items
  rw [List.flatMap_append, List.append_assoc, ← toList_formatRequestHeaders]
  unfold create responseItems
  dsimp only
  split_ifs
  all_goals
    simp only [String.toList_append, List.flatMap_cons, List.flatMap_nil, text_token, text_inQuotes, List.append_assoc,
      List.cons_append, List.append_nil, List.nil_append]
    rfl

end Line

section Numerals

/-- Digits, signs, points and commas. -/
def Numeral (s : String) : Prop := ∀ c ∈ s.toList, c.isDigit = true ∨ c = '-' ∨ c = '.' ∨ c = ','

variable {s t : String}

theorem Numeral.append (first : Numeral s) (second : Numeral t) : Numeral (s ++ t) := by
  intro c member
  rw [String.toList_append] at member
  exact (List.mem_append.mp member).elim (first c) (second c)

theorem numeral_padded (width : Nat) (n : Int) : Numeral (padded width n) := by
  intro c member
  unfold padded at member
  rw [String.toList_ofList] at member
  split_ifs at member
  · rcases List.mem_cons.mp member with sign | digit
    · exact Or.inr (Or.inl sign)
    · exact Or.inl (pad_isDigit _ _ c digit)
  · exact Or.inl (pad_isDigit _ _ c member)

theorem numeral_point (negative : Prop) [Decidable negative] (width whole width' fraction : Nat) :
    Numeral (String.ofList ((if negative then ['-'] else []) ++ pad width whole ++ '.' :: pad width' fraction)) := by
  intro c member
  rw [String.toList_ofList, List.append_assoc] at member
  rcases List.mem_append.mp member with sign | number
  · split_ifs at sign
    · exact Or.inr (Or.inl (List.mem_singleton.mp sign))
    · cases sign
  rcases List.mem_append.mp number with digit | rest
  · exact Or.inl (pad_isDigit _ _ c digit)
  rcases List.mem_cons.mp rest with point | digit
  · exact Or.inr (Or.inr (Or.inl point))
  · exact Or.inl (pad_isDigit _ _ c digit)

theorem Numeral.notMem (numeral : Numeral s) {c : Char} (other : ¬(c.isDigit = true ∨ c = '-' ∨ c = '.' ∨ c = ',')) : c ∉ s.toList :=
  fun member => other (numeral c member)

theorem numeral_timeString (this : HTTPAccessRecord) : Numeral (timeString this) := by
  have point : Numeral "." := fun c member => Or.inr (Or.inr (Or.inl (List.mem_singleton.mp member)))
  exact ((numeral_padded _ _).append point).append (numeral_padded _ _)

end Numerals

section Reading

variable {this : HTTPAccessRecord} {nanoTime : Int}

theorem items_keys : ∀ item ∈ items this nanoTime, '=' ∉ item.key := by
  have header : ∀ item ∈ headerItems this, '=' ∉ item.key := by
    unfold headerItems
    intro item member
    split at member
    · rw [List.mem_singleton.mp member]
      decide
    · rw [List.mem_singleton.mp member]
      decide
    · obtain ⟨text, _, rfl⟩ := List.mem_map.mp member
      exact (by decide : '=' ∉ "rh".toList)
  have response : ∀ item ∈ responseItems this nanoTime, '=' ∉ item.key := by
    unfold responseItems
    intro item member
    split_ifs at member
    · rcases List.mem_cons.mp member with rfl | member
      · exact (by decide : '=' ∉ "pssc".toList)
      · rw [List.mem_singleton.mp member]
        exact (by decide : '=' ∉ "ttms".toList)
    · cases member
  unfold items
  simp only [List.forall_mem_append, List.forall_mem_cons, token, inQuotes]
  refine ⟨⟨⟨?_, response⟩, ?_⟩, header⟩
  all_goals
    simp only [List.not_mem_nil, false_implies, implies_true, and_true]
    decide

/-- A line gives its fields back exactly when all of its items are clean. -/
theorem readLine_create : readLine (create this nanoTime) = some (fields this nanoTime) ↔ ∀ item ∈ items this nanoTime, item.Clean := by
  have time : ' ' ∉ (timeString this).toList := (numeral_timeString this).notMem (by decide)
  have line := @toList_create this nanoTime
  have some_ : items this nanoTime = token "qtype" "HTTP" :: (items this nanoTime).tail := rfl
  have blank : (if headerItems this = [] then [' '] else []) = [] ∨ (if headerItems this = [] then [' '] else []) = [' '] := by
    split_ifs
    · exact Or.inr rfl
    · exact Or.inl rfl
  have enough : (items this nanoTime).length ≤ (create this nanoTime).toList.length := by
    rw [line, List.length_append, List.length_append]
    exact Nat.le_add_left_of_le (Nat.le_add_right_of_le (length_le_line _))
  have read := @readItems_iff (items this nanoTime) items_keys _ blank _ enough
  rw [← read]
  generalize (if headerItems this = [] then [' '] else []) = trail at line ⊢
  have split : ∃ others, (items this nanoTime).flatMap (fun item => ' ' :: item.text) ++ trail = ' ' :: others := by
    rw [some_]
    exact ⟨_, rfl⟩
  obtain ⟨others, begins⟩ := split
  obtain ⟨taken, dropped⟩ := @takeWhile_stop ' ' (timeString this).toList others time
  unfold readLine fields
  rw [line, begins, taken, dropped, Option.map_eq_some_iff, String.ofList_toList]
  constructor
  · rintro ⟨found, readBack, same⟩
    rw [readBack]
    have injective : Function.Injective fun field : List Char × List Char => (String.ofList field.1, String.ofList field.2) := fun a b same =>
      Prod.ext (String.ofList_injective (congrArg (·.1) same)) (String.ofList_injective (congrArg (·.2) same))
    refine congrArg some (List.map_injective_iff.mpr injective ?_)
    rw [(List.cons_eq_cons.mp same).2, List.map_map]
    rfl
  · intro readBack
    refine ⟨_, readBack, ?_⟩
    rw [List.map_map]
    rfl

end Reading

-- A value that can stand without quotes.
def Token (s : String) : Prop := ' ' ∉ s.toList ∧ s.toList.head? ≠ some '"'

def Quotable (s : String) : Prop := '"' ∉ s.toList

/-- No text from outside ends the value that it is written in. -/
structure Plain (this : HTTPAccessRecord) : Prop where
  client : ∀ ip ∈ (this.request.getHeader HTTPRequest.X_MM_CLIENT_IP).or (this.request.getParameter HTTPRequest.FAKE_IP), Token ip
  remote : ∀ address ∈ this.request.getRemoteAddr, Token address
  method : ∀ method ∈ this.request.getMethod, Token method
  protocol : ∀ protocol ∈ this.request.getProtocol, Token protocol
  url : ∀ url ∈ this.request.getRequestURL, Quotable url
  queryString : formatObject this.request.getRequestURL ≠ "-" → ∀ queryString ∈ this.request.getQueryString, Quotable queryString
  rerr : ∀ rerr ∈ this.rerr, Quotable rerr
  postal : ∀ result ∈ this.regionalGeoResult, ∀ postal ∈ result.postal, Quotable postal
  responseURL : ∀ url ∈ this.responseURL, Quotable url
  responseURLs : ∀ urls ∈ this.responseURLs, ∀ url ∈ urls, Quotable url
  headers : ∀ entries ∈ this.requestHeaders, ∀ entry ∈ entries, (∃ value ∈ entry.2, value ≠ "") → Quotable entry.1

section Values

variable {s t : String} {this : HTTPAccessRecord}

theorem clean_token {key value : String} : (token key value).Clean ↔ Token value := Iff.rfl

theorem clean_inQuotes {key value : String} : (inQuotes key value).Clean ↔ Quotable value := Iff.rfl

theorem quotable_append : Quotable (s ++ t) ↔ Quotable s ∧ Quotable t := by
  unfold Quotable
  rw [String.toList_append, List.mem_append, not_or]

theorem Numeral.token (numeral : Numeral s) : Token s :=
  ⟨numeral.notMem (by decide), fun quote => numeral.notMem (by decide) (List.mem_of_mem_head? quote)⟩

theorem Numeral.quotable (numeral : Numeral s) : Quotable s := numeral.notMem (by decide)

theorem token_formatObject {o : Option String} : Token (formatObject o) ↔ ∀ s ∈ o, Token s := by
  cases o with
  | none => exact iff_of_true (by unfold Token; decide) fun _ absent => by cases absent
  | some s => simp [formatObject]

theorem quotable_formatObject {o : Option String} : Quotable (formatObject o) ↔ ∀ s ∈ o, Quotable s := by
  cases o with
  | none => exact iff_of_true (by unfold Quotable; decide) fun _ absent => by cases absent
  | some s => simp [formatObject]

theorem token_resultType : Token (resultType this) := by
  unfold resultType
  rw [token_formatObject]
  intro text named
  obtain ⟨result, _, rfl⟩ := Option.map_eq_some_iff.mp named
  unfold Token
  cases result <;> decide

theorem token_resultDetails : Token (resultDetails this) := by
  unfold resultDetails
  split_ifs
  · rw [token_formatObject]
    intro text named
    obtain ⟨details, _, rfl⟩ := Option.map_eq_some_iff.mp named
    unfold Token
    cases details <;> decide
  · unfold Token
    decide

theorem quotable_rloc : Quotable (rloc this) := by
  unfold rloc
  cases this.resultLocation with
  | none =>
    unfold Quotable
    decide
  | some location =>
    have comma : Quotable "," := by
      unfold Quotable
      decide
    exact quotable_append.mpr ⟨quotable_append.mpr ⟨(numeral_point _ _ _ _ _).quotable, comma⟩, (numeral_point _ _ _ _ _).quotable⟩

/-- The client's address, as it says and as it is. -/
theorem token_chi_rhi : Token (chi this) ∧ Token (rhi this) ↔
    (∀ ip ∈ (this.request.getHeader HTTPRequest.X_MM_CLIENT_IP).or (this.request.getParameter HTTPRequest.FAKE_IP), Token ip) ∧
      ∀ address ∈ this.request.getRemoteAddr, Token address := by
  have dash : Token "-" := by
    unfold Token
    decide
  have remote : Token (remoteIp this) ↔ ∀ address ∈ this.request.getRemoteAddr, Token address := token_formatObject
  unfold rhi
  rw [← remote]
  have said (ip : String) : Token ip ∧ Token (if remoteIp this ≠ ip then remoteIp this else "-") ↔ Token ip ∧ Token (remoteIp this) := by
    split_ifs with other
    · exact Iff.rfl
    · rw [not_not.mp other]
      exact ⟨fun both => ⟨both.1, both.1⟩, fun both => ⟨both.1, dash⟩⟩
  rw [said]
  unfold chi
  cases this.request.getHeader HTTPRequest.X_MM_CLIENT_IP with
  | some ip => simp
  | none =>
    cases this.request.getParameter HTTPRequest.FAKE_IP with
    | some ip => simp
    | none => simp

theorem quotable_formatRequest : Quotable (formatRequest this.request) ↔ (∀ url ∈ this.request.getRequestURL, Quotable url) ∧
    (formatObject this.request.getRequestURL ≠ "-" → ∀ queryString ∈ this.request.getQueryString, Quotable queryString) := by
  rw [← quotable_formatObject]
  unfold formatRequest
  dsimp only
  split_ifs with dash
  · simp [dash]
  · cases this.request.getQueryString with
    | none => simp
    | some queryString =>
      dsimp only
      split_ifs with empty
      · have nothing : Quotable queryString := by
          rw [String.isEmpty_iff.mp empty]
          exact List.not_mem_nil
        simp [nothing]
      · have mark : Quotable "?" := by
          unfold Quotable
          decide
        rw [quotable_append, quotable_append]
        simp [mark, dash]

theorem quotable_toString {result : RegionalGeoResult} : Quotable result.toString ↔ ∀ postal ∈ result.postal, Quotable postal := by
  have fixed {c : Prop} [Decidable c] {a b : String} (first : Quotable a) (second : Quotable b) : Quotable (if c then a else b) := by
    split_ifs
    · exact first
    · exact second
  have flag : Quotable "1" ∧ Quotable "0" ∧ Quotable ":" ∧ Quotable "-" ∧ Quotable "I" ∧ Quotable "X" := by
    unfold Quotable
    decide
  obtain ⟨one, zero, colon, dash, include_, exclude⟩ := flag
  have postal : Quotable (result.postal.getD "-") ↔ ∀ postal ∈ result.postal, Quotable postal := quotable_formatObject
  unfold RegionalGeoResult.toString
  simp only [quotable_append, postal, colon, fixed one zero, fixed dash (fixed dash (fixed include_ exclude)), and_true]

theorem quotable_intercalate {separator : String} (plain : Quotable separator) (texts : List String) :
    Quotable (separator.intercalate texts) ↔ ∀ text ∈ texts, Quotable text := by
  induction texts with
  | nil => exact iff_of_true (by rw [String.intercalate_nil]; exact List.not_mem_nil) fun _ absent => absurd absent List.not_mem_nil
  | cons text texts ih =>
    cases texts with
    | nil => simp [String.intercalate_singleton]
    | cons next texts =>
      rw [String.intercalate_cons_cons, quotable_append, quotable_append, ih, List.forall_mem_cons]
      simp [plain]

theorem quotable_responseURLs : Quotable (responseURLs this) ↔ ∀ urls ∈ this.responseURLs, ∀ url ∈ urls, Quotable url := by
  have fixed : Quotable "[" ∧ Quotable "]" ∧ Quotable ", " := by
    unfold Quotable
    decide
  unfold responseURLs
  rw [quotable_formatObject]
  cases this.responseURLs with
  | none => simp
  | some urls => simp [quotable_append, fixed, quotable_intercalate]

theorem quotable_headerText {entry : String × Option String} : (∀ text ∈ headerText entry, Quotable text) ↔
    ((∃ value ∈ entry.2, value ≠ "") → Quotable entry.1) := by
  unfold headerText
  cases entry.2 with
  | none => simp
  | some value =>
    dsimp only
    split_ifs with empty
    · simp [String.isEmpty_iff.mp empty]
    · have colon : Quotable ": " := by
        unfold Quotable
        decide
      have replaced : Quotable (String.ofList (value.toList.map fun c => if c = '"' then '\x27' else c)) := by
        unfold Quotable
        rw [String.toList_ofList]
        intro member
        obtain ⟨c, _, same⟩ := List.mem_map.mp member
        split_ifs at same with quote
        · cases same
        · exact quote same
      have filled : value ≠ "" := fun none => empty (String.isEmpty_iff.mpr none)
      simp [quotable_append, colon, replaced, filled]

theorem clean_headerItems : (∀ item ∈ headerItems this, item.Clean) ↔
    ∀ entries ∈ this.requestHeaders, ∀ entry ∈ entries, (∃ value ∈ entry.2, value ≠ "") → Quotable entry.1 := by
  have dash : Quotable "-" := by
    unfold Quotable
    decide
  unfold headerItems
  cases this.requestHeaders with
  | none => simp [clean_inQuotes, dash]
  | some entries =>
    cases entries with
    | nil => simp [clean_inQuotes, dash]
    | cons entry entries =>
      dsimp only
      rw [List.forall_mem_map]
      simp only [clean_inQuotes, List.mem_filterMap, ← quotable_headerText]
      constructor
      · intro clean all same entry member text written
        cases same
        exact clean text ⟨entry, member, written⟩
      · rintro plain text ⟨entry, member, written⟩
        exact plain _ rfl entry member text written

end Values

/-- The items are clean when the texts from outside are. -/
theorem clean_items {this : HTTPAccessRecord} {nanoTime : Int} : (∀ item ∈ items this nanoTime, item.Clean) ↔ Plain this := by
  have http : Token "HTTP" := by
    unfold Token
    decide
  have response : ∀ item ∈ responseItems this nanoTime, item.Clean := by
    unfold responseItems
    intro item member
    split_ifs at member
    · rcases List.mem_cons.mp member with rfl | member
      · exact clean_token.mpr (numeral_padded _ _).token
      · rw [List.mem_singleton.mp member]
        exact clean_token.mpr (numeral_point _ _ _ _ _).token
    · cases member
  have rgb : Quotable (formatObject (this.regionalGeoResult.map RegionalGeoResult.toString)) ↔
      ∀ result ∈ this.regionalGeoResult, ∀ postal ∈ result.postal, Quotable postal := by
    rw [quotable_formatObject]
    cases this.regionalGeoResult with
    | none => simp
    | some result => simp [quotable_toString]
  have client := @token_chi_rhi this
  unfold items
  simp only [List.forall_mem_append, List.forall_mem_cons, clean_token, clean_inQuotes, http, token_resultType, quotable_rloc,
    token_resultDetails, token_formatObject, quotable_formatRequest, rgb, quotable_responseURLs, clean_headerItems]
  constructor
  · rintro ⟨⟨⟨⟨_, chi, rhi, ⟨url, queryString⟩, method, protocol, _, _, _, rerr, postal, _⟩, _⟩, responseURL, responseURLs, _⟩, headers⟩
    obtain ⟨said, remote⟩ := client.mp ⟨chi, rhi⟩
    exact ⟨said, remote, method, protocol, url, queryString, quotable_formatObject.mp rerr, postal, quotable_formatObject.mp responseURL,
      responseURLs, headers⟩
  · intro plain
    obtain ⟨chi, rhi⟩ := client.mpr ⟨plain.client, plain.remote⟩
    have done : ∀ item ∈ ([] : List Item), item.Clean := fun _ absent => absurd absent List.not_mem_nil
    exact ⟨⟨⟨⟨trivial, chi, rhi, ⟨plain.url, plain.queryString⟩, plain.method, plain.protocol, trivial, trivial, trivial,
      quotable_formatObject.mpr plain.rerr, plain.postal, done⟩, response⟩, quotable_formatObject.mpr plain.responseURL, plain.responseURLs,
      done⟩, plain.headers⟩

section Injective

variable {a b : HTTPAccessRecord} {now now' : Int}

theorem padded_injective {m n : Int} (same : padded 0 m = padded 0 n) : m = n := by
  unfold padded at same
  have digits {k l : Nat} (equal : pad 0 k = pad 0 l) : k = l := by
    unfold pad at equal
    rw [Nat.zero_sub, Nat.zero_sub] at equal
    have values := congrArg (Nat.ofDigitChars 10 · 0) equal
    simpa [Nat.ofDigitChars_toDigits] using values
  have minus (k : Nat) (rest : List Char) : pad 0 k ≠ '-' :: rest := fun equal => by
    have digit := pad_isDigit 0 k '-' (equal ▸ List.mem_cons_self)
    exact absurd digit (by decide)
  have lists := String.ofList_injective same
  split_ifs at lists with negative negative'
  · have := digits (List.cons_eq_cons.mp lists).2
    omega
  · exact absurd lists.symm (minus _ _)
  · exact absurd lists (minus _ _)
  · have := digits lists
    omega

theorem toString_resultType_injective {result result' : ResultType} (same : result.toString = result'.toString) : result = result' := by
  cases result <;> cases result' <;> first | rfl | exact absurd same (by decide)

theorem resultType_injective (same : resultType a = resultType b) : a.resultType = b.resultType := by
  have named (result : ResultType) : result.toString ≠ "-" := by cases result <;> decide
  unfold resultType formatObject at same
  cases typeA : a.resultType with
  | none =>
    cases typeB : b.resultType with
    | none => rfl
    | some result =>
      rw [typeA, typeB] at same
      exact absurd same.symm (named result)
  | some result =>
    cases typeB : b.resultType with
    | none =>
      rw [typeA, typeB] at same
      exact absurd same (named result)
    | some result' =>
      rw [typeA, typeB] at same
      exact congrArg some (toString_resultType_injective same)

theorem fields_injective (same : fields a now = fields b now') :
    a.resultType = b.resultType ∧ resultDetails a = resultDetails b ∧ a.responseCode = b.responseCode := by
  unfold fields items at same
  simp only [List.map_append, List.map_cons, List.cons_append, List.nil_append, List.append_assoc, List.cons.injEq, Prod.mk.injEq,
    token, inQuotes, String.ofList_toList] at same
  obtain ⟨_, _, _, _, _, _, _, ⟨_, type⟩, _, ⟨_, details⟩, _, _, response⟩ := same
  refine ⟨resultType_injective type, details, ?_⟩
  unfold responseItems at response
  split_ifs at response with logged logged' logged'
  · have code : String.ofList (padded 0 a.responseCode).toList = String.ofList (padded 0 b.responseCode).toList :=
      congrArg (·.2) (List.cons_eq_cons.mp response).1
    rw [String.ofList_toList, String.ofList_toList] at code
    exact padded_injective code
  · have key : String.ofList "pssc".toList = String.ofList "rurl".toList := congrArg (·.1) (List.cons_eq_cons.mp response).1
    exact absurd key (by decide)
  · have key : String.ofList "rurl".toList = String.ofList "pssc".toList := congrArg (·.1) (List.cons_eq_cons.mp response).1
    exact absurd key (by decide)
  · omega

end Injective

/-- Two records are told apart by their lines when no text from outside ends the value that it is written in. -/
theorem create_unambiguous_iff (a b : HTTPAccessRecord) (now now' : Int) :
    (readLine (create a now) = some (fields a now) ∧ readLine (create b now') = some (fields b now') ∧ (create a now = create b now' →
      a.resultType = b.resultType ∧ resultDetails a = resultDetails b ∧ a.responseCode = b.responseCode)) ↔ Plain a ∧ Plain b := by
  rw [← and_assoc, readLine_create, readLine_create, clean_items, clean_items]
  refine and_iff_left_of_imp ?_
  rintro ⟨plain, plain'⟩ same
  have read : readLine (create a now) = some (fields a now) := readLine_create.mpr (clean_items.mpr plain)
  rw [same, readLine_create.mpr (clean_items.mpr plain')] at read
  exact fields_injective (Option.some.inj read).symm

section Forged

-- The client names its own address and a result.
def forged : HTTPAccessRecord where
  requestDate := 1500000000000
  requestNanoTime := 0
  request :=
    { getRemoteAddr := some "192.0.2.1"
      getRequestURL := some "http://www.example.net/"
      getQueryString := none
      getMethod := some "GET"
      getProtocol := some "HTTP/1.1"
      getHeader := fun name => if name = HTTPRequest.X_MM_CLIENT_IP then some "192.0.2.2 rtype=CZ" else none
      getParameter := fun _ => none }
  responseURL := none
  responseURLs := none
  responseCode := 503
  resultType := some .MISS
  rerr := none
  resultDetails := some .DS_NOT_FOUND
  resultLocation := none
  requestHeaders := some []
  regionalGeoResult := none

end Forged

/-- The address that a client gives itself is written as it is, and so can be followed by more fields. -/
theorem create_forged : ¬∀ (a b : HTTPAccessRecord) (now now' : Int), readLine (create a now) = some (fields a now) ∧
    readLine (create b now') = some (fields b now') ∧ (create a now = create b now' →
      a.resultType = b.resultType ∧ resultDetails a = resultDetails b ∧ a.responseCode = b.responseCode) := by
  intro unambiguous
  have plain := clean_items.mp (readLine_create.mp (unambiguous forged forged 0 0).1)
  exact (plain.client "192.0.2.2 rtype=CZ" rfl).1 (by decide)

end TrafficControl.TrafficRouter.HTTPAccessEventBuilder
