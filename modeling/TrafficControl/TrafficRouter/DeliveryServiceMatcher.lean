import TrafficControl.Lib.SearchTree
import TrafficControl.TrafficRouter.JsonUtils

set_option autoImplicit false

namespace TrafficControl.TrafficRouter

structure HTTPRequest where
  clientIP : String
  hostname : Option String
  requestedUrl : String
  path : Option String
  uri : Option String
  queryString : Option String
  headers : Option (List (String × String))
  secure : Bool

namespace HTTPRequest

def getHeaderValue (this : HTTPRequest) (name : String) : Option String :=
  this.headers.bind fun headers => (headers.find? fun header => header.1 = name).map (·.2)

end HTTPRequest

inductive Request where
  | dns (clientIP : String) (hostname : Option String)
  | http (httpRequest : HTTPRequest)

def Request.hostname : Request → Option String
  | dns _ hostname => hostname
  | http httpRequest => httpRequest.hostname

-- `java.util.regex`, case insensitive: which texts compile, and which match a whole input.
structure PatternEngine where
  compiles : String → Bool
  matchesWhole : String → String → Bool

inductive MatchType where
  | HOST
  | HEADER
  | PATH
deriving DecidableEq

def MatchType.valueOf (name : String) : Except ConfigException MatchType :=
  if name = "HOST" then .ok .HOST
  else if name = "HEADER" then .ok .HEADER
  else if name = "PATH" then .ok .PATH
  else .error (.illegalArgumentException ("No enum constant " ++
    "com.comcast.cdn.traffic_control.traffic_router.core.ds.DeliveryServiceMatcher.Type." ++ name))

namespace ComparableStringByLength

def compareStrings : List Char → List Char → Int
  | [], [] => 0
  | [], other => -other.length
  | string, [] => string.length
  | c :: string, d :: other =>
    if c = d then compareStrings string other else (c.toNat : Int) - d.toNat

def compareTo (string other : List Char) : Int :=
  if string.length = other.length then compareStrings string other
  else if other.length < string.length then -1 else 1

end ComparableStringByLength

namespace RequestMatcher

def wordChar (c : Char) : Bool := c.isAlphanum || c == '_'

def kept (c : Char) : Bool := wordChar c || c == '-' || c == '.' || c == '/'

def lineTerminator (c : Char) : Bool :=
  [0x0a, 0x0d, 0x85, 0x2028, 0x2029].contains c.toNat

-- `([\W])*([\w-\./]+).*` over the whole regex, with the first group's length tried from the
-- longest down as a greedy quantifier does; the value is group 2.
def metaGroup (regex : List Char) : Option (List Char) :=
  let longest := (regex.takeWhile fun c => !wordChar c).length
  (List.range (longest + 1)).reverse.findSome? fun start =>
    let rest := regex.drop start
    let group := rest.takeWhile kept
    if group.isEmpty || (rest.dropWhile kept).any lineTerminator then none else some group

end RequestMatcher

structure RequestMatcher where
  type : MatchType
  pattern : String
  requestHeader : String
  comparableRegex : List Char
deriving DecidableEq

namespace RequestMatcher

variable (engine : PatternEngine)

def new (type : MatchType) (regex requestHeader : String) : Except ConfigException RequestMatcher :=
  if type = .HEADER ∧ requestHeader = "" then
    .error (.illegalArgumentException "Request Header name must be supplied for type HEADER")
  else if !engine.compiles regex then .error (.patternSyntaxException regex)
  else
    match metaGroup regex.toList with
    | none => .error (.illegalStateException "No match found")
    | some comparableRegex => .ok ⟨type, regex, requestHeader, comparableRegex⟩

def getTarget (this : RequestMatcher) (request : Request) : Option String :=
  if this.type = .HOST then request.hostname
  else
    match request with
    | .dns _ _ => none
    | .http httpRequest =>
      if this.type = .HEADER then httpRequest.getHeaderValue this.requestHeader
      else
        match httpRequest.queryString with
        | none => httpRequest.path
        | some queryString => some (httpRequest.path.getD "null" ++ "?" ++ queryString)

def matchesRequest (this : RequestMatcher) (request : Request) : Bool :=
  match this.getTarget request with
  | none => false
  | some target => engine.matchesWhole this.pattern target

def compareTo (this other : RequestMatcher) : Int :=
  if this = other then 0
  else ComparableStringByLength.compareTo this.comparableRegex other.comparableRegex

end RequestMatcher

-- One DeliveryService object exists for each id, so the id stands for it.
structure DeliveryServiceMatcher where
  deliveryService : String
  requestMatchers : List RequestMatcher
deriving DecidableEq

namespace DeliveryServiceMatcher

variable (engine : PatternEngine)

def addMatch (this : DeliveryServiceMatcher) (type : MatchType) (string target : String) :
    Except ConfigException DeliveryServiceMatcher :=
  (RequestMatcher.new engine type string target).map fun matcher =>
    { this with requestMatchers := this.requestMatchers ++ [matcher] }

def matchesRequest (this : DeliveryServiceMatcher) (request : Request) : Bool :=
  this.requestMatchers.all (·.matchesRequest engine request) && !this.requestMatchers.isEmpty

-- An entry's value says whether the map holds `this` (rather than `that`) under the key.
def putAll (value : Bool) (matchers : List RequestMatcher) (map : SearchTree (RequestMatcher × Bool)) :
    SearchTree (RequestMatcher × Bool) :=
  matchers.foldl (fun map matcher =>
    map.put (fun entry => matcher.compareTo entry.1) (matcher, value) fun entry => (entry.1, value)) map

def compareTo (this that : DeliveryServiceMatcher) : Int :=
  if this = that then 0
  else
    let (uniqueToThis, uniqueToThat) := this.requestMatchers.foldl
      (fun (mine, theirs) matcher =>
        if theirs.contains matcher then (mine.erase matcher, theirs.erase matcher) else (mine, theirs))
      (this.requestMatchers.eraseDups, that.requestMatchers.eraseDups)
    match (putAll false uniqueToThat (putAll true uniqueToThis .leaf)).toList with
    | [] => 0
    | firstEntry :: _ => if firstEntry.2 then -1 else 1

theorem putAll_false (matchers : List RequestMatcher) (map : SearchTree (RequestMatcher × Bool))
    (old : ∀ entry ∈ map.toList, entry.2 = false) :
    (∀ entry ∈ (putAll false matchers map).toList, entry.2 = false) ∧
      ((putAll false matchers map).toList = [] ↔ matchers = [] ∧ map.toList = []) := by
  induction matchers generalizing map with
  | nil => exact ⟨old, by simp [putAll]⟩
  | cons matcher rest ih =>
    obtain ⟨values, nonempty⟩ := SearchTree.forall_put (fun entry => matcher.compareTo entry.1)
      (matcher, false) (fun entry => (entry.1, false)) (fun entry => entry.2 = false) map old rfl
      fun _ _ => rfl
    obtain ⟨allFalse, emptyIff⟩ := ih _ values
    exact ⟨allFalse, emptyIff.trans (by simp [nonempty])⟩

-- A matcher without a match list comes after every matcher that has one.
theorem compareTo_empty {this that : DeliveryServiceMatcher} (empty : this.requestMatchers = []) :
    this.compareTo that = if that.requestMatchers = [] then 0 else 1 := by
  have noEntries : (SearchTree.leaf : SearchTree (RequestMatcher × Bool)).toList = [] := rfl
  unfold compareTo
  split_ifs with same none none
  · rfl
  · exact absurd (same ▸ empty) none
  · simp [empty, none, putAll, noEntries]
  · obtain ⟨first, rest, list⟩ := List.exists_cons_of_ne_nil none
    have values := putAll_false (that.requestMatchers.eraseDups) .leaf (by simp [noEntries])
    have nonempty : (putAll false that.requestMatchers.eraseDups .leaf).toList ≠ [] := by
      rw [Ne, values.2, list, List.eraseDups_cons]
      simp
    obtain ⟨firstEntry, others, entries⟩ := List.exists_cons_of_ne_nil nonempty
    have notThis : firstEntry.2 = false := values.1 firstEntry (by simp [entries])
    simp only [empty, List.foldl_nil, List.eraseDups_nil]
    simp [putAll] at entries ⊢
    simp [entries, notThis]

end DeliveryServiceMatcher

end TrafficControl.TrafficRouter
