import Mathlib.Data.List.Infix
import TrafficControl.Lib.ExceptList
import TrafficControl.TrafficRouter.Config.Snapshot
import TrafficControl.TrafficRouter.Router.Route

set_option autoImplicit false

-- The snapshot that Traffic Ops makes for the routers, and the rules that it makes for the caches.
namespace Topology

open TrafficControl.TrafficRouter ConfigHandler

section Generators

structure Regex where
  type : String
  pattern : String
  setNumber : Nat
deriving DecidableEq

/-- A delivery service, with what is joined to it. -/
structure Deliveryservice where
  xmlId : String
  type : String
  active : Bool
  routingName : String
  protocol : Option Int
  geoLimit : Int
  orgServerFqdn : Option String
  regexes : List Regex
  servers : List Nat
  dscp : Int
  edgeHeaderRewrite : Option String
  signingAlgorithm : Option String
  qstringIgnore : Int
  cacheurl : Option String
  cachekey : Option (List (String × String))
  regexRemap : Option String
  rangeRequestHandling : Int
  remapText : Option String

/-- A server, with the parameters of its profile. -/
structure Server where
  id : Nat
  hostName : String
  domainName : String
  type : String
  status : String
  cachegroup : String
  tcpPort : Option Int
  httpsPort : Option Int
  interfaceName : String
  ipAddress : String
  ip6Address : Option String
  profile : String
  xmppId : Option String
  routingDisabled : Bool
  -- The weight times its multiplier.
  hashCount : Int
  dscpRemap : Bool
  globalCacheurl : Bool
  atsMajorVersion : Nat

def startsWith (word text : String) : Bool := word.toList.isPrefixOf text.toList

/-- What is in the snapshot as a content server. -/
def Server.isContent (s : Server) : Bool :=
  s.status ∈ ["ONLINE", "REPORTED", "ADMIN_DOWN"] && (startsWith "EDGE" s.type || startsWith "MID" s.type)

structure Cdn where
  domainName : String
  servers : List Server
  deliveryservices : List Deliveryservice
  hostNames : ((servers.filter Server.isContent).map Server.hostName).Nodup
  xmlIds : (deliveryservices.map Deliveryservice.xmlId).Nodup

-- `m/\.\*$/`
def endsInStar (host : String) : Bool := [".*", ".*\n"].any fun ending => ending.toList.isSuffixOf host.toList

-- `s/\\|\.\*//g`
def dropEscapes : List Char → List Char
  | [] => []
  | '\\' :: rest => dropEscapes rest
  | '.' :: '*' :: rest => dropEscapes rest
  | c :: rest => c :: dropEscapes rest

-- `s/\.\*//g`
def dropStars : List Char → List Char
  | [] => []
  | '.' :: '*' :: rest => dropStars rest
  | c :: rest => c :: dropStars rest

-- `s/\\//g`
def dropBackslashes (text : List Char) : List Char := text.filter (· ≠ '\\')

namespace Deliveryservice

variable (ds : Deliveryservice)

def isDns : Bool := ds.type.toList.tails.any fun rest => "DNS".toList.isPrefixOf rest

def hosts : List Regex := ds.regexes.filter fun regex => regex.type = "HOST_REGEXP"

def patternAt (n : Nat) : Option String := ((ds.hosts.filter fun regex => regex.setNumber = n).getLast?).map Regex.pattern

-- An array by the numbers of the sets: a number without a pattern leaves a hole.
def dsToRemap : List (Option String) := (List.range ((ds.hosts.map fun regex => regex.setNumber + 1).foldr max 0)).map ds.patternAt

def remap (domainName : String) (s : Server) (host : String) : String :=
  if endsInStar host then (if ds.isDns then ds.routingName else s.hostName) ++ String.ofList (dropEscapes host.toList) ++ domainName else host

/-- Whether the snapshot has the delivery service at the server. -/
def isRouted (s : Server) : Bool :=
  ds.active && ds.type ≠ "ANY_MAP" && s.id ∈ ds.servers && !s.routingDisabled && !ds.dsToRemap.isEmpty

def isSsl : Bool := ds.protocol.any fun protocol => 0 < protocol && protocol < 4

def flag (value : Bool) : JsonNode := .text (if value then "true" else "false")

/-- What the snapshot tells of the delivery service. -/
def json : JsonNode :=
  .object [("routingName", .text ds.routingName), ("coverageZoneOnly", flag (ds.geoLimit = 1)), ("sslEnabled", flag ds.isSsl),
    ("protocol", .object ([("acceptHttps", flag ds.isSsl), ("redirectToHttps", flag (ds.protocol = some 3))] ++
      if ds.protocol = some 1 then [("acceptHttp", flag false)] else []))]

end Deliveryservice

namespace Cdn

variable (cdn : Cdn)

def numberOrNull (value : Option Int) : JsonNode := value.elim .null fun n => .number (toString n)

def remaps (s : Server) (ds : Deliveryservice) : List JsonNode :=
  ds.dsToRemap.map fun host => host.elim .null fun host => .text (ds.remap cdn.domainName s host)

def services (s : Server) : List (String × JsonNode) :=
  (cdn.deliveryservices.filter fun ds => ds.isRouted s).map fun ds => (ds.xmlId, .array (cdn.remaps s ds))

def contentServer (s : Server) : JsonNode :=
  .object ([("locationId", .text s.cachegroup), ("cacheGroup", .text s.cachegroup), ("fqdn", .text (s.hostName ++ "." ++ s.domainName)),
    ("port", numberOrNull s.tcpPort), ("httpsPort", numberOrNull s.httpsPort), ("interfaceName", .text s.interfaceName),
    ("status", .text s.status), ("ip", .text s.ipAddress), ("ip6", .text (s.ip6Address.getD "")), ("profile", .text s.profile),
    ("type", .text s.type), ("hashId", .text ((s.xmppId.filter fun id => id ≠ "" && id ≠ "0").getD s.hostName)),
    ("hashCount", .number (toString s.hashCount)), ("routingDisabled", .number (if s.routingDisabled then "1" else "0"))] ++
    if (cdn.services s).isEmpty then [] else [("deliveryServices", .object (cdn.services s))])

def contentServers : JsonNode :=
  .object ((cdn.servers.filter Server.isContent).map fun s => (s.hostName, cdn.contentServer s))

end Cdn

-- The rules of remap.config.
namespace Deliveryservice

variable (ds : Deliveryservice)

def byProtocol (http https : String) : List String :=
  let protocol := ds.protocol.getD 0
  if protocol = 0 then [http] else if protocol = 1 ∨ protocol = 3 then [https] else if protocol = 2 then [http, https] else []

def mapFroms (domainName : String) (s : Server) (regex : Regex) : List String :=
  if regex.type = "HOST_REGEXP" ∧ ds.orgServerFqdn.isSome then
    if endsInStar regex.pattern then
      let re := String.ofList (dropStars (dropBackslashes regex.pattern.toList))
      let hname := if startsWith "DNS" ds.type then ds.routingName else "__http__"
      let port := s.tcpPort.getD 0
      let portstr := if hname = "__http__" ∧ 0 < port ∧ port ≠ 80 then ":" ++ toString port else ""
      ds.byProtocol ("http://" ++ hname ++ re ++ domainName ++ portstr ++ "/") ("https://" ++ hname ++ re ++ domainName ++ "/")
    else ds.byProtocol ("http://" ++ regex.pattern ++ "/") ("https://" ++ regex.pattern ++ "/")
  else []

-- `s/__http__/$hostname/`, for the first.
def replaceFirst (word replacement : List Char) : List Char → List Char
  | [] => []
  | c :: rest => if word.isPrefixOf (c :: rest) then replacement ++ (c :: rest).drop word.length else c :: replaceFirst word replacement rest

def atServer (s : Server) (mapFrom : String) : String :=
  String.ofList (replaceFirst "__http__".toList s.hostName.toList mapFrom.toList)

def signing : String :=
  if ds.signingAlgorithm = some "url_sig" then " @plugin=url_sig.so @pparam=url_sig_" ++ ds.xmlId ++ ".config"
  else if ds.signingAlgorithm = some "uri_signing" then " @plugin=uri_signing.so @pparam=uri_signing_" ++ ds.xmlId ++ ".config"
  else ""

def getQstringIgnoreRemap (atsMajorVersion : Nat) : String :=
  if 6 ≤ atsMajorVersion then
    " @plugin=cachekey.so @pparam=--separator= @pparam=--remove-all-params=true @pparam=--remove-path=true " ++
      "@pparam=--capture-prefix-uri=/http:\\/\\/([^?]*)/http:\\/\\/$1/"
  else " @plugin=cacheurl.so @pparam=cacheurl_qstring.config"

def qstring (s : Server) : String :=
  if ds.qstringIgnore = 2 then " @plugin=regex_remap.so @pparam=drop_qstring.config"
  else if ds.qstringIgnore = 1 ∧ s.globalCacheurl = false then getQstringIgnoreRemap s.atsMajorVersion
  else ""

def rangeRequests : String :=
  if ds.rangeRequestHandling = 1 then " @plugin=background_fetch.so @pparam=bg_fetch.config"
  else if ds.rangeRequestHandling = 2 then " @plugin=cache_range_requests.so "
  else ""

def buildRemapLine (s : Server) (mapFrom mapTo : String) : String :=
  "map\t" ++ atServer s mapFrom ++ "     " ++ mapTo ++
    (if s.dscpRemap then " @plugin=dscp_remap.so @pparam=" ++ toString ds.dscp
      else " @plugin=header_rewrite.so @pparam=dscp/set_dscp_" ++ toString ds.dscp ++ ".config") ++
    (if ds.edgeHeaderRewrite.isSome then " @plugin=header_rewrite.so @pparam=hdr_rw_" ++ ds.xmlId ++ ".config" else "") ++
    ds.signing ++ ds.qstring s ++
    (if ds.cacheurl.any (· ≠ "") then " @plugin=cacheurl.so @pparam=cacheurl_" ++ ds.xmlId ++ ".config" else "") ++
    (ds.cachekey.elim "" fun entries =>
      " @plugin=cachekey.so" ++ String.join (entries.map fun entry => " @pparam=--" ++ entry.1 ++ "=" ++ entry.2)) ++
    (if ds.regexRemap.any (· ≠ "") then " @plugin=regex_remap.so @pparam=regex_remap_" ++ ds.xmlId ++ ".config" else "") ++
    ds.rangeRequests ++ (ds.remapText.elim "" (" " ++ ·)) ++ "\n"

def remapLines (domainName : String) (s : Server) (regex : Regex) : String :=
  if ds.type = "ANY_MAP" then ds.remapText.getD "" ++ "\n"
  else String.join ((ds.mapFroms domainName s regex).map fun mapFrom => ds.buildRemapLine s mapFrom (ds.orgServerFqdn.getD "" ++ "/"))

end Deliveryservice

-- The file of an edge.
def Cdn.remapDotConfig (cdn : Cdn) (header : String) (s : Server) : String :=
  let texts := (cdn.deliveryservices.filter fun ds => s.id ∈ ds.servers).flatMap fun ds => ds.regexes.map (ds.remapLines cdn.domainName s)
  header ++ String.join (texts.mergeSort fun a b => a ≤ b)

end Generators

section Texts

/-- A dot and a star with nothing but backslashes between, and some. -/
def hidesStar : List Char → Bool
  | [] => false
  | c :: rest => (c == '.' && rest.head? == some '\\' && (dropBackslashes rest).head? == some '*') || hidesStar rest

theorem dropBackslashes_cons {c : Char} (plain : c ≠ '\\') (rest : List Char) : dropBackslashes (c :: rest) = c :: dropBackslashes rest :=
  List.filter_cons_of_pos (by simpa using plain)

theorem dropStars_star (rest : List Char) : dropStars ('*' :: rest) = '*' :: dropStars rest := by
  rw [dropStars]
  exact fun _ dot => absurd dot (by decide)

/-- The rules drop as much as the snapshot does, and more where backslashes hide a star. -/
theorem dropStars_dropBackslashes (text : List Char) : (dropStars (dropBackslashes text)).length ≤ (dropEscapes text).length ∧
    (dropStars (dropBackslashes text) = dropEscapes text ↔ hidesStar text = false) := by
  induction text using dropEscapes.induct with
  | case1 => exact ⟨Nat.le_refl _, by simp [dropBackslashes, dropStars, dropEscapes, hidesStar]⟩
  | case2 rest ih => simpa [dropBackslashes, dropEscapes, hidesStar] using ih
  | case3 rest ih => simpa [dropBackslashes, dropStars, dropEscapes, hidesStar] using ih
  | case4 c rest plain apart ih =>
    rw [dropBackslashes_cons plain, dropEscapes]
    · by_cases hidden : c = '.' ∧ (dropBackslashes rest).head? = some '*'
      · obtain ⟨rfl, star⟩ := hidden
        obtain ⟨behind, same⟩ := List.head?_eq_some_iff.mp star
        have escaped : rest.head? = some '\\' := by
          cases rest with
          | nil => cases star
          | cons d rest =>
            by_cases backslash : d = '\\'
            · exact congrArg some backslash
            · rw [dropBackslashes_cons backslash] at star
              exact (apart rest rfl (congrArg (· :: rest) (Option.some.inj star))).elim
        have shorter : (dropStars behind).length + 1 ≤ (dropEscapes rest).length := by
          have fewer := ih.1
          rwa [same, dropStars_star, List.length_cons] at fewer
        rw [same, dropStars]
        refine ⟨by rw [List.length_cons]; omega, fun equal => ?_, fun none => ?_⟩
        · have lengths := congrArg List.length equal
          rw [List.length_cons] at lengths
          omega
        · simp [hidesStar, escaped, star] at none
      · have kept : dropStars (c :: dropBackslashes rest) = c :: dropStars (dropBackslashes rest) := by
          rw [dropStars]
          exact fun behind dot same => hidden ⟨dot, by rw [same]; rfl⟩
        have shown : hidesStar (c :: rest) = hidesStar rest := by
          rw [hidesStar, Bool.or_eq_right_iff_imp]
          simp only [Bool.and_eq_true, beq_iff_eq]
          exact fun both => absurd ⟨both.1.1, both.2⟩ hidden
        rw [kept, shown, List.length_cons, List.length_cons, List.cons.injEq]
        exact ⟨Nat.succ_le_succ ih.1, and_iff_right rfl |>.trans ih.2⟩
    · exact plain
    · exact apart

end Texts

section Rules

variable {ds : Deliveryservice} {domainName : String} {s : Server} {regex : Regex}

theorem replaceFirst_absent {word replacement text : List Char} (absent : ¬word <:+: text) :
    Deliveryservice.replaceFirst word replacement text = text := by
  induction text with
  | nil => rfl
  | cons c rest ih =>
    rw [List.infix_cons_iff, not_or] at absent
    rw [Deliveryservice.replaceFirst, if_neg fun front => absent.1 (List.isPrefixOf_iff_prefix.mp front), ih absent.2]

/-- The host that the rules of a pattern have at a server. -/
def Server.target (s : Server) (domainName pattern : String) : String :=
  if endsInStar pattern then s.hostName ++ String.ofList (dropStars (dropBackslashes pattern.toList)) ++ domainName else pattern

def Server.rulePort (s : Server) (pattern : String) : String :=
  if endsInStar pattern ∧ 0 < s.tcpPort.getD 0 ∧ s.tcpPort.getD 0 ≠ 80 then ":" ++ toString (s.tcpPort.getD 0) else ""

theorem atServer_marked (rest : String) : Deliveryservice.atServer s ("http://" ++ "__http__" ++ rest) = "http://" ++ s.hostName ++ rest ∧
    Deliveryservice.atServer s ("https://" ++ "__http__" ++ rest) = "https://" ++ s.hostName ++ rest := by
  have http : Deliveryservice.replaceFirst "__http__".toList s.hostName.toList ("http://".toList ++ ("__http__".toList ++ rest.toList)) =
      "http://".toList ++ (s.hostName.toList ++ rest.toList) := rfl
  have https : Deliveryservice.replaceFirst "__http__".toList s.hostName.toList ("https://".toList ++ ("__http__".toList ++ rest.toList)) =
      "https://".toList ++ (s.hostName.toList ++ rest.toList) := rfl
  simp only [Deliveryservice.atServer, String.toList_append, http, https, String.ofList_append, String.ofList_toList,
    String.append_assoc, and_self]

theorem atServer_literal {pattern : String} (unmarked : ¬"__http__".toList <:+: pattern.toList) :
    Deliveryservice.atServer s ("http://" ++ pattern ++ "/") = "http://" ++ pattern ++ "/" ∧
      Deliveryservice.atServer s ("https://" ++ pattern ++ "/") = "https://" ++ pattern ++ "/" := by
  have absent : ¬"__http__".toList <:+: pattern.toList ++ ['/'] := by
    rw [List.infix_concat_iff]
    rintro (⟨front, same⟩ | inside)
    · have last := congrArg List.getLast? same
      rw [List.getLast?_append, List.getLast?_concat] at last
      exact absurd (Option.some.inj last) (by decide)
    · exact unmarked inside
  have http : Deliveryservice.replaceFirst "__http__".toList s.hostName.toList ("http://".toList ++ (pattern.toList ++ ['/'])) =
      "http://".toList ++ Deliveryservice.replaceFirst "__http__".toList s.hostName.toList (pattern.toList ++ ['/']) := rfl
  have https : Deliveryservice.replaceFirst "__http__".toList s.hostName.toList ("https://".toList ++ (pattern.toList ++ ['/'])) =
      "https://".toList ++ Deliveryservice.replaceFirst "__http__".toList s.hostName.toList (pattern.toList ++ ['/']) := rfl
  have slash : "/".toList = ['/'] := rfl
  simp only [Deliveryservice.atServer, String.toList_append, List.append_assoc, slash, http, https, replaceFirst_absent absent]
  constructor <;> (apply String.toList_inj.mp; simp)

/-- The prefixes of the URIs that the rules of a pattern match. -/
theorem mapFroms_atServer (http : ds.isDns = false) (host : regex.type = "HOST_REGEXP") (origin : ds.orgServerFqdn.isSome = true)
    (unmarked : ¬"__http__".toList <:+: regex.pattern.toList) : (ds.mapFroms domainName s regex).map (Deliveryservice.atServer s) =
      ds.byProtocol ("http://" ++ s.target domainName regex.pattern ++ s.rulePort regex.pattern ++ "/")
        ("https://" ++ s.target domainName regex.pattern ++ "/") := by
  have byProtocol : ∀ a b, (ds.byProtocol a b).map (Deliveryservice.atServer s) =
      ds.byProtocol (Deliveryservice.atServer s a) (Deliveryservice.atServer s b) := by
    intro a b
    unfold Deliveryservice.byProtocol
    dsimp only
    split_ifs <;> rfl
  have plain : startsWith "DNS" ds.type = false := by
    refine Bool.eq_false_iff.mpr fun starts => Bool.eq_false_iff.mp http ?_
    exact List.any_eq_true.mpr ⟨ds.type.toList, (List.mem_tails _ _).mpr List.suffix_rfl, starts⟩
  rw [Deliveryservice.mapFroms, if_pos ⟨host, origin⟩, Server.target, Server.rulePort]
  by_cases starred : endsInStar regex.pattern = true
  · have marked := fun rest => @atServer_marked s rest
    simp only [starred, plain, if_true, Bool.false_eq_true, if_false, true_and, byProtocol]
    simp only [String.append_assoc] at marked ⊢
    simp only [marked]
  · obtain ⟨http, https⟩ := @atServer_literal s regex.pattern unmarked
    simp only [starred, Bool.false_eq_true, if_false, false_and, byProtocol, http, https, String.append_empty]

theorem mem_byProtocol {http https prefixed : String} : prefixed ∈ ds.byProtocol http https ↔
    (prefixed = http ∧ (ds.protocol.getD 0 = 0 ∨ ds.protocol.getD 0 = 2)) ∨
      (prefixed = https ∧ (ds.protocol.getD 0 = 1 ∨ ds.protocol.getD 0 = 2 ∨ ds.protocol.getD 0 = 3)) := by
  unfold Deliveryservice.byProtocol
  dsimp only
  split_ifs with none single both
  · simp [none]
  · rcases single with is | is <;> simp [is]
  · simp [both]
  · rw [not_or] at single
    simp [none, single, both]

theorem schemes_apart (a b c : String) : "https://" ++ a ≠ "http://" ++ b ++ c := by
  intro same
  have letters := congrArg (fun text => text.toList[4]?) same
  simp only [String.toList_append] at letters
  exact absurd (Option.some.inj letters) (by decide)

theorem length_remap (http : ds.isDns = false) (pattern : String) : (s.target domainName pattern).length ≤ (ds.remap domainName s pattern).length ∧
    (ds.remap domainName s pattern = s.target domainName pattern ↔ (endsInStar pattern = true → hidesStar pattern.toList = false)) := by
  unfold Deliveryservice.remap Server.target
  by_cases starred : endsInStar pattern = true
  · obtain ⟨shorter, same⟩ := dropStars_dropBackslashes pattern.toList
    simp only [starred, http, if_true, Bool.false_eq_true, if_false, forall_const, String.append_left_inj, String.append_right_inj]
    refine ⟨?_, ?_⟩
    · simpa using shorter
    · rw [← same, String.ofList_inj, eq_comm]
  · simp [starred]

/-- The port that the router puts into a URI. -/
def Server.uriPort (s : Server) (secure : Bool) : String :=
  if secure = true ∨ s.tcpPort.getD 0 = 80 then "" else ":" ++ toString (s.tcpPort.getD 0)

theorem uriPort_eq_empty : s.uriPort false = "" ↔ s.tcpPort.getD 0 = 80 := by
  simp only [Server.uriPort, Bool.false_eq_true, false_or]
  by_cases usual : s.tcpPort.getD 0 = 80
  · simp only [usual, if_true]
  · rw [if_neg usual]
    refine iff_of_false (fun empty => ?_) usual
    have longer := congrArg String.length empty
    rw [String.length_append] at longer
    exact absurd longer (by simp)

/-- The ports agree for a host of the cache itself, and not for a host that is given in full. -/
theorem ports_agree (http : ds.isDns = false) (pattern : String) :
    ds.remap domainName s pattern ++ s.uriPort false = s.target domainName pattern ++ s.rulePort pattern ↔
      (endsInStar pattern = true → hidesStar pattern.toList = false ∧ 0 < s.tcpPort.getD 0) ∧
        (endsInStar pattern = false → s.tcpPort.getD 0 = 80) := by
  obtain ⟨shorter, same⟩ := @length_remap ds domainName s http pattern
  by_cases starred : endsInStar pattern = true
  · simp only [starred, forall_const, reduceCtorEq, IsEmpty.forall_iff, and_true] at same ⊢
    by_cases positive : 0 < s.tcpPort.getD 0
    · have ports : s.uriPort false = s.rulePort pattern := by
        simp only [Server.uriPort, Server.rulePort, Bool.false_eq_true, false_or, starred, positive, true_and, ne_eq, ite_not]
      rw [ports, String.append_left_inj, same]
      exact (and_iff_left positive).symm
    · have unnamed : s.rulePort pattern = "" := if_neg fun all => positive all.2.1
      refine iff_of_false (fun equal => ?_) fun both => positive both.2
      have unusual : s.uriPort false ≠ "" := fun empty => positive (by rw [uriPort_eq_empty.mp empty]; decide)
      have longer := congrArg String.length equal
      rw [unnamed, String.append_empty, String.length_append] at longer
      have written : (s.uriPort false).length ≠ 0 := fun none => unusual (String.length_eq_zero_iff.mp none)
      omega
  · have literal : endsInStar pattern = false := Bool.eq_false_iff.mpr starred
    have unnamed : s.rulePort pattern = "" := if_neg fun all => starred all.1
    rw [same.mpr fun star => absurd star starred, unnamed, String.append_right_inj, uriPort_eq_empty]
    exact ⟨fun port => ⟨fun star => absurd star starred, fun _ => port⟩, fun both => both.2 literal⟩

/-- When a cache has a rule for what the router redirects to it. -/
structure Fits (ds : Deliveryservice) (s : Server) (pattern : String) (secure : Bool) : Prop where
  origin : ds.orgServerFqdn.isSome = true
  scheme : secure = true ∨ ds.protocol.getD 0 = 0 ∨ ds.protocol.getD 0 = 2
  starred : endsInStar pattern = true → hidesStar pattern.toList = false ∧ (secure = true ∨ 0 < s.tcpPort.getD 0)
  literal : endsInStar pattern = false → secure = true ∨ s.tcpPort.getD 0 = 80

theorem prefix_mem_mapFroms (http : ds.isDns = false) (host : regex.type = "HOST_REGEXP") (unmarked : ¬"__http__".toList <:+: regex.pattern.toList)
    {secure : Bool} (ssl : secure = true → ds.isSsl = true) :
    (if secure then "https://" else "http://") ++ ds.remap domainName s regex.pattern ++ s.uriPort secure ++ "/" ∈
      (ds.mapFroms domainName s regex).map (Deliveryservice.atServer s) ↔ Fits ds s regex.pattern secure := by
  by_cases origin : ds.orgServerFqdn.isSome = true
  · obtain ⟨shorter, same⟩ := @length_remap ds domainName s http regex.pattern
    rw [mapFroms_atServer http host origin unmarked, mem_byProtocol]
    cases secure with
    | true =>
      have protocol : ds.protocol.getD 0 = 1 ∨ ds.protocol.getD 0 = 2 ∨ ds.protocol.getD 0 = 3 := by
        obtain ⟨p, given, range⟩ := (Option.any_eq_true _ _).mp (ssl rfl)
        rw [given, Option.getD_some]
        simp only [Bool.and_eq_true, decide_eq_true_eq] at range
        omega
      simp only [if_true, Server.uriPort, true_or, String.append_empty, schemes_apart, false_and, false_or, String.append_left_inj,
        String.append_right_inj, same]
      exact ⟨fun both => ⟨origin, Or.inl rfl, fun starred => ⟨both.1 starred, Or.inl rfl⟩, fun _ => Or.inl rfl⟩,
        fun fits => ⟨fun starred => (fits.starred starred).1, protocol⟩⟩
    | false =>
      simp only [Bool.false_eq_true, if_false, (schemes_apart _ _ _).symm, false_and, or_false, String.append_left_inj]
      rw [String.append_assoc, String.append_assoc, String.append_right_inj, ports_agree http]
      constructor
      · rintro ⟨⟨starred, literal⟩, protocol⟩
        exact ⟨origin, Or.inr protocol, fun star => (starred star).imp_right Or.inr, fun full => Or.inr (literal full)⟩
      · rintro ⟨-, scheme, starred, literal⟩
        exact ⟨⟨fun star => (starred star).imp_right fun port => port.resolve_left Bool.false_ne_true,
          fun full => (literal full).resolve_left Bool.false_ne_true⟩, scheme.resolve_left Bool.false_ne_true⟩
  · have none : ds.mapFroms domainName s regex = [] := if_neg fun both => origin both.2
    rw [none, List.map_nil]
    exact ⟨fun member => (nomatch member), fun fits => absurd fits.origin origin⟩

end Rules

section Reading

variable {java : Java} {config : JsonNode} {cdn : Cdn} {s : Server} {locations : List (String × Geolocation)}

/-- The name of a delivery service at a server that a router keeps: the first. -/
def Cdn.referredName (cdn : Cdn) (java : Java) (s : Server) (ds : Deliveryservice) : String :=
  java.toLowerCase ((cdn.remaps s ds).headD .null).asText

def Cdn.routed (cdn : Cdn) (s : Server) : List Deliveryservice := cdn.deliveryservices.filter fun ds => ds.isRouted s

theorem parse_service {ds : Deliveryservice} (routed : ds.isRouted s = true) (state : List (String × String) × StatMap) :
    ∃ names : StatMap, parseServerService java config state (ds.xmlId, .array (cdn.remaps s ds)) =
      if '.' ∈ (cdn.referredName java s ds).toList then .ok (state.1 ++ [(ds.xmlId, cdn.referredName java s ds)], names)
      else .error (.parseException ("Invalid FQDN (" ++ cdn.referredName java s ds ++ ") on delivery service " ++ ds.xmlId ++
        "; please verify the HOST regex(es) in Traffic Ops")) := by
  have nonempty : cdn.remaps s ds ≠ [] := by
    simp only [Deliveryservice.isRouted, Bool.and_eq_true, Bool.not_eq_true', List.isEmpty_eq_false_iff] at routed
    exact fun none => routed.2 (List.map_eq_nil_iff.mp none)
  obtain ⟨first, rest, names⟩ := List.exists_cons_of_ne_nil nonempty
  unfold Cdn.referredName
  rw [names, List.headD_cons]
  refine ⟨state.2.insert ds.xmlId ((((first :: rest).map fun nameNode => java.toLowerCase nameNode.asText).map (statName java config)).foldl addName
    ((state.2.lookup ds.xmlId).getD [])), ?_⟩
  dsimp only [parseServerService, newDeliveryServiceReference]
  by_cases dotted : '.' ∈ (java.toLowerCase first.asText).toList
  · rw [if_pos dotted, if_pos (List.contains_iff_mem.mpr dotted)]
    rfl
  · rw [if_neg dotted, if_neg fun contained => dotted (List.contains_iff_mem.mp contained)]
    rfl

/-- The references of a server are read exactly when each has a dot. -/
theorem parse_services (dss : List Deliveryservice) (routed : ∀ ds ∈ dss, ds.isRouted s = true) (state : List (String × String) × StatMap) :
    ((∃ result, (dss.map fun ds => (ds.xmlId, JsonNode.array (cdn.remaps s ds))).foldlM (parseServerService java config) state = .ok result) ↔
      ∀ ds ∈ dss, '.' ∈ (cdn.referredName java s ds).toList) ∧
    ∀ result, (dss.map fun ds => (ds.xmlId, JsonNode.array (cdn.remaps s ds))).foldlM (parseServerService java config) state = .ok result →
      result.1 = state.1 ++ dss.map fun ds => (ds.xmlId, cdn.referredName java s ds) := by
  induction dss generalizing state with
  | nil =>
    rw [List.map_nil, List.map_nil, List.foldlM_nil]
    refine ⟨iff_of_true ⟨state, rfl⟩ fun ds member => (nomatch member), fun result same => ?_⟩
    rw [← Except.ok.inj same, List.append_nil]
  | cons ds dss ih =>
    obtain ⟨names, parsed⟩ := @parse_service java config cdn s ds (routed ds List.mem_cons_self) state
    rw [List.map_cons, List.foldlM_cons, parsed, List.forall_mem_cons]
    by_cases dotted : '.' ∈ (cdn.referredName java s ds).toList
    · obtain ⟨accepted, results⟩ := ih (fun other member => routed other (List.mem_cons_of_mem _ member))
        (state.1 ++ [(ds.xmlId, cdn.referredName java s ds)], names)
      rw [if_pos dotted]
      refine ⟨accepted.trans (and_iff_right dotted).symm, fun result same => ?_⟩
      rw [results result same, List.append_assoc, List.map_cons]
      rfl
    · rw [if_neg dotted]
      refine ⟨iff_of_false (fun read => ?_) fun all => dotted all.1, fun result same => nomatch same⟩
      obtain ⟨result, same⟩ := read
      cases same

theorem services_eq : cdn.services s = (cdn.routed s).map fun ds => (ds.xmlId, JsonNode.array (cdn.remaps s ds)) := rfl

/-- The services that a router reads of a server. -/
theorem contentServer_services : ((cdn.contentServer s).get "deliveryServices").elim [] JsonNode.fields = cdn.services s := by
  unfold Cdn.contentServer
  by_cases none : (cdn.services s).isEmpty = true
  · rw [if_pos none, List.isEmpty_iff.mp none]
    rfl
  · rw [if_neg none]
    rfl

theorem get_contentServer (content : s ∈ cdn.servers.filter Server.isContent) :
    JsonUtils.getJsonNode cdn.contentServers s.hostName = .ok (cdn.contentServer s) := by
  have unique : (((cdn.servers.filter Server.isContent).map fun s => (s.hostName, cdn.contentServer s)).map Prod.fst).Nodup := by
    rw [List.map_map]
    exact cdn.hostNames
  have found := JsonObject.get_of_mem ⟨_, unique⟩ (List.mem_map_of_mem content)
  have got : cdn.contentServers.get s.hostName = some (cdn.contentServer s) := found
  rw [JsonUtils.getJsonNode, got]

/-- What a router reads of a server. -/
def Cdn.configuredCache (cdn : Cdn) (java : Java) (s : Server) : ConfiguredCache where
  id := s.hostName
  hashId := hashIdOf s.hostName (cdn.contentServer s)
  hashCount := java.asInt (.number (toString s.hashCount)) 0
  fqdn := s.hostName ++ "." ++ s.domainName
  port := java.asInt (Cdn.numberOrNull s.tcpPort) 0
  ip := s.ipAddress
  ip6 := s.ip6Address.getD ""
  location := s.cachegroup
  deliveryServices := (cdn.routed s).map fun ds => (ds.xmlId, cdn.referredName java s ds)

/-- The servers of the snapshot whose location a router has. -/
def Cdn.located (cdn : Cdn) (locations : List (String × Geolocation)) : List Server :=
  (cdn.servers.filter Server.isContent).filter fun s => (locations.map Prod.fst).contains s.cachegroup

def Cdn.Dotted (cdn : Cdn) (java : Java) (s : Server) : Prop := ∀ ds ∈ cdn.routed s, '.' ∈ (cdn.referredName java s ds).toList

theorem parse_contentServer (content : s ∈ cdn.servers.filter Server.isContent) (state : List ConfiguredCache × StatMap) :
    parseContentServer java config locations cdn.contentServers state s.hostName =
      if (locations.map Prod.fst).contains s.cachegroup then
        ((cdn.services s).foldlM (parseServerService java config) ([], state.2)).map fun read =>
          (state.1 ++ [{ cdn.configuredCache java s with deliveryServices := read.1 }], read.2)
      else .ok state := by
  have locationId : JsonUtils.getString (cdn.contentServer s) "locationId" = .ok s.cachegroup := rfl
  have fqdn : JsonUtils.getString (cdn.contentServer s) "fqdn" = .ok (s.hostName ++ "." ++ s.domainName) := rfl
  have port : getInt java (cdn.contentServer s) "port" = .ok (java.asInt (Cdn.numberOrNull s.tcpPort) 0) := rfl
  have ip : JsonUtils.getString (cdn.contentServer s) "ip" = .ok s.ipAddress := rfl
  have ip6 : JsonUtils.optString (cdn.contentServer s) "ip6" "" = s.ip6Address.getD "" := rfl
  have hashCount : optInt java (cdn.contentServer s) "hashCount" 0 = java.asInt (.number (toString s.hashCount)) 0 := rfl
  rw [parseContentServer, get_contentServer content]
  simp only [Except.mapError, Except.bind, locationId, fqdn, port, ip, ip6, hashCount, contentServer_services]
  rfl

theorem routed_isRouted {ds : Deliveryservice} (member : ds ∈ cdn.routed s) : ds.isRouted s = true := (List.mem_filter.mp member).2

theorem parse_servers (rows : List Server) (content : ∀ s ∈ rows, s ∈ cdn.servers.filter Server.isContent)
    (state : List ConfiguredCache × StatMap) :
    ((∃ result, (rows.map Server.hostName).foldlM (parseContentServer java config locations cdn.contentServers) state = .ok result) ↔
      ∀ s ∈ rows.filter fun s => (locations.map Prod.fst).contains s.cachegroup, cdn.Dotted java s) ∧
    ∀ result, (rows.map Server.hostName).foldlM (parseContentServer java config locations cdn.contentServers) state = .ok result →
      result.1 = state.1 ++ (rows.filter fun s => (locations.map Prod.fst).contains s.cachegroup).map (cdn.configuredCache java) := by
  induction rows generalizing state with
  | nil =>
    rw [List.map_nil, List.filter_nil, List.map_nil, List.foldlM_nil]
    refine ⟨iff_of_true ⟨state, rfl⟩ fun s member => (nomatch member), fun result same => ?_⟩
    rw [← Except.ok.inj same, List.append_nil]
  | cons s rows ih =>
    have later := fun state => ih (fun other member => content other (List.mem_cons_of_mem _ member)) state
    rw [List.map_cons, List.foldlM_cons, parse_contentServer (content s List.mem_cons_self), List.filter_cons]
    split
    · rw [List.forall_mem_cons, List.map_cons]
      obtain ⟨accepted, read⟩ := @parse_services java config cdn s (cdn.routed s) (fun ds => routed_isRouted) ([], state.2)
      rw [← services_eq] at accepted read
      cases parsed : (cdn.services s).foldlM (parseServerService java config) ([], state.2) with
      | error e =>
        refine ⟨iff_of_false (fun read => ?_) fun all => ?_, fun result same => (nomatch same)⟩
        · obtain ⟨result, same⟩ := read
          cases same
        · obtain ⟨result, same⟩ := accepted.mpr all.1
          cases parsed.symm.trans same
      | ok references =>
        have dotted : cdn.Dotted java s := accepted.mp ⟨references, parsed⟩
        obtain ⟨rest, results⟩ := later (state.1 ++ [{ cdn.configuredCache java s with deliveryServices := references.1 }], references.2)
        refine ⟨rest.trans (and_iff_right dotted).symm, fun result same => ?_⟩
        rw [results result same, read references parsed, List.nil_append, List.append_assoc]
        rfl
    · exact later state

theorem parse_snapshot : ((∃ parsed, parseCacheConfig java config locations cdn.contentServers = .ok parsed) ↔
      ∀ s ∈ cdn.located locations, cdn.Dotted java s) ∧
    ∀ parsed, parseCacheConfig java config locations cdn.contentServers = .ok parsed →
      parsed.1 = (cdn.located locations).map (cdn.configuredCache java) := by
  have names : fieldNames cdn.contentServers = (cdn.servers.filter Server.isContent).map Server.hostName := by
    rw [fieldNames, Cdn.contentServers, JsonNode.fields, List.map_map]
    rfl
  rw [parseCacheConfig, names]
  exact @parse_servers java config cdn locations (cdn.servers.filter Server.isContent) (fun s member => member) ([], ∅)

theorem referredName_eq {ds : Deliveryservice} (member : ds ∈ cdn.routed s) : cdn.referredName java s ds =
    java.toLowerCase ((ds.patternAt 0).elim "null" fun pattern => ds.remap cdn.domainName s pattern) := by
  have routed := routed_isRouted member
  simp only [Deliveryservice.isRouted, Bool.and_eq_true, Bool.not_eq_true', List.isEmpty_eq_false_iff, Deliveryservice.dsToRemap, ne_eq,
    List.map_eq_nil_iff, List.range_eq_nil] at routed
  obtain ⟨n, sets⟩ := Nat.exists_eq_succ_of_ne_zero routed.2
  rw [Cdn.referredName, Cdn.remaps, Deliveryservice.dsToRemap, sets, List.range_succ_eq_map, List.map_cons, List.map_cons, List.headD_cons]
  cases ds.patternAt 0 <;> rfl

/-- A router takes the content servers of a snapshot exactly when each delivery service has, in the set 0, a host with a dot. -/
theorem snapshot_accepted_iff (plain : '.' ∉ (java.toLowerCase "null").toList) :
    (∃ parsed, parseCacheConfig java config locations cdn.contentServers = .ok parsed) ↔
      ∀ s ∈ cdn.located locations, ∀ ds ∈ cdn.routed s, ∃ pattern, ds.patternAt 0 = some pattern ∧
        '.' ∈ (java.toLowerCase (ds.remap cdn.domainName s pattern)).toList := by
  rw [parse_snapshot.1]
  refine forall₂_congr fun s _ => forall₂_congr fun ds member => ?_
  rw [referredName_eq member]
  cases ds.patternAt 0 with
  | none => exact iff_of_false plain fun some => nomatch some.choose_spec.1
  | some pattern => simp

end Reading

section Redirects

variable {java : Java} {config : JsonNode} {cdn : Cdn} {s : Server} {locations : List (String × Geolocation)}
variable {α : Type} [LinearOrder α] {router : TrafficRouter α} {ds : DeliveryService} {request : HTTPRequest} {cache : Cache α}

/-- The flags that a router reads of a delivery service. -/
structure Reads (json : JsonNode) (ds : DeliveryService) : Prop where
  sslEnabled : ds.sslEnabled = JsonUtils.optBoolean (some json) "sslEnabled" false
  acceptHttp : ds.acceptHttp = JsonUtils.optBoolean (json.get "protocol") "acceptHttp" true
  acceptHttps : ds.acceptHttps = JsonUtils.optBoolean (json.get "protocol") "acceptHttps" false
  redirectToHttps : ds.redirectToHttps = JsonUtils.optBoolean (json.get "protocol") "redirectToHttps" false

/-- The cache that is made of what was read. Its port for https stays the one that it has from the beginning. -/
structure Loaded (configured : ConfiguredCache) (cache : Cache α) : Prop where
  port : cache.port = configured.port
  httpsPort : cache.httpsPort = 443
  deliveryServices : ∀ id fqdn, cache.deliveryServices.lookup id = some fqdn → (id, fqdn) ∈ configured.deliveryServices

theorem asBooleanOr_flag (value : Bool) : (Deliveryservice.flag value).asBooleanOr false = value := by
  cases value <;> rfl

theorem isSsl_of_useSecure {row : Deliveryservice} (reads : Reads row.json ds) (secure : ds.useSecure request = true) : row.isSsl = true := by
  have accepts : ds.acceptHttps = true := by
    unfold DeliveryService.useSecure at secure
    split at secure <;> simp_all
  have told : ds.acceptHttps = (Deliveryservice.flag row.isSsl).asBooleanOr false := reads.acceptHttps
  rw [← asBooleanOr_flag row.isSsl, ← told, accepts]

theorem createCacheURL_text {location : LocationRef} {memory after : Memory} {url : RoutedUrl α} {fqdn : String}
    (found : cache.deliveryServices.lookup ds.id = some fqdn)
    (created : Routine.outcome (router.createCacheURL ds request location (some cache)) memory = (.ok url, after)) :
    ∃ tinfo, url.text = ds.createURIString request fqdn (if ds.useSecure request then cache.httpsPort else cache.port) tinfo := by
  obtain ⟨chosen, memory, given, created⟩ := Routine.bind_returned created
  cases given
  obtain ⟨host, memory, named, created⟩ := Routine.bind_returned created
  unfold TrafficRouter.getFQDN at named
  rw [found] at named
  cases named
  obtain ⟨tinfo, memory, asked, created⟩ := Routine.bind_returned created
  refine ⟨tinfo, ?_⟩
  dsimp only at created
  generalize ds.createURIString request fqdn (if ds.useSecure request then cache.httpsPort else cache.port) tinfo = text at created ⊢
  unfold TrafficRouter.newURL at created
  split at created
  · cases created
    rfl
  · cases created

theorem pattern_of_set {row : Deliveryservice} {n : Nat} {pattern : String} (found : row.patternAt n = some pattern) :
    ∃ regex ∈ row.regexes, regex.type = "HOST_REGEXP" ∧ regex.pattern = pattern := by
  obtain ⟨regex, last, same⟩ := Option.map_eq_some_iff.mp found
  obtain ⟨listed, host⟩ := List.mem_filter.mp (List.mem_of_mem_filter (List.mem_of_getLast? last))
  exact ⟨regex, listed, of_decide_eq_true host, same⟩

theorem buildRemapLine_eq {row : Deliveryservice} {mapFrom mapTo : String} :
    ∃ rest, row.buildRemapLine s mapFrom mapTo = "map\t" ++ Deliveryservice.atServer s mapFrom ++ "     " ++ rest := by
  unfold Deliveryservice.buildRemapLine
  simp only [String.append_assoc, String.append_right_inj]
  exact ⟨_, rfl⟩

theorem mem_remapDotConfig {row : Deliveryservice} (listed : row ∈ cdn.deliveryservices) (assigned : s.id ∈ row.servers) (mapped : row.type ≠ "ANY_MAP")
    {regex : Regex} (member : regex ∈ row.regexes) {mapFrom : String} (rule : mapFrom ∈ row.mapFroms cdn.domainName s regex) (header : String) :
    ∃ before after, cdn.remapDotConfig header s = before ++ "map\t" ++ Deliveryservice.atServer s mapFrom ++ "     " ++ after := by
  have joined : ∀ {text : String} {texts : List String}, text ∈ texts → ∃ before after, String.join texts = before ++ text ++ after := by
    intro text texts inside
    obtain ⟨front, back, rfl⟩ := List.append_of_mem inside
    exact ⟨String.join front, String.join back, by rw [String.join_append, String.join_cons, String.append_assoc]⟩
  have text : row.remapLines cdn.domainName s regex ∈ ((cdn.deliveryservices.filter fun ds => s.id ∈ ds.servers).flatMap fun ds =>
      ds.regexes.map (ds.remapLines cdn.domainName s)).mergeSort fun a b => a ≤ b := by
    rw [List.mem_mergeSort]
    exact List.mem_flatMap.mpr ⟨row, List.mem_filter.mpr ⟨listed, decide_eq_true assigned⟩, List.mem_map_of_mem member⟩
  obtain ⟨before, after, file⟩ := joined text
  have line : row.buildRemapLine s mapFrom (row.orgServerFqdn.getD "" ++ "/") ∈ (row.mapFroms cdn.domainName s regex).map fun mapFrom =>
      row.buildRemapLine s mapFrom (row.orgServerFqdn.getD "" ++ "/") := List.mem_map_of_mem rule
  obtain ⟨start, rest, lines⟩ := joined line
  obtain ⟨options, written⟩ := @buildRemapLine_eq s row mapFrom (row.orgServerFqdn.getD "" ++ "/")
  refine ⟨header ++ before ++ start, options ++ rest ++ after, ?_⟩
  rw [Cdn.remapDotConfig, file, Deliveryservice.remapLines, if_neg mapped, lines, written]
  simp only [String.append_assoc]

/-- The beginning of the URIs that a router redirects to a server for a delivery service, up to the path. -/
def Cdn.uriBase (cdn : Cdn) (s : Server) (row : Deliveryservice) (pattern : String) (secure : Bool) : String :=
  (if secure then "https://" else "http://") ++ row.remap cdn.domainName s pattern ++ s.uriPort secure ++ "/"

/-- Jackson reads the ports that Traffic Ops writes, and lower case keeps the names that it has. -/
structure Plain (java : Java) : Prop where
  asInt : ∀ n : Int, java.asInt (.number (toString n)) 0 = n
  asIntNull : java.asInt .null 0 = 0
  nullName : '.' ∉ (java.toLowerCase "null").toList

theorem asInt_port (plain : Plain java) (port : Option Int) : java.asInt (Cdn.numberOrNull port) 0 = port.getD 0 := by
  cases port with
  | none => exact plain.asIntNull
  | some n => exact plain.asInt n

/-- What a router makes of a cache and a delivery service of the snapshot is the URI of a server of that delivery service. -/
theorem referred_of_parsed (plain : Plain java) {read : List ConfiguredCache × StatMap}
    (parsed : parseCacheConfig java config locations cdn.contentServers = .ok read) {configured : ConfiguredCache} (member : configured ∈ read.1)
    {row : Deliveryservice} (listed : row ∈ cdn.deliveryservices) {fqdn : String} (referred : (row.xmlId, fqdn) ∈ configured.deliveryServices) :
    ∃ s ∈ cdn.servers, s.hostName = configured.id ∧ configured.port = s.tcpPort.getD 0 ∧ row.isRouted s = true ∧
      ∃ pattern, row.patternAt 0 = some pattern ∧ fqdn = java.toLowerCase (row.remap cdn.domainName s pattern) := by
  obtain ⟨accepted, caches⟩ := @parse_snapshot java config cdn locations
  rw [caches read parsed] at member
  obtain ⟨s, located, rfl⟩ := List.mem_map.mp member
  obtain ⟨other, routed, same⟩ := List.mem_map.mp referred
  obtain ⟨named, rfl⟩ := Prod.mk.inj same
  have stored := List.mem_filter.mp routed
  obtain rfl := List.inj_on_of_nodup_map cdn.xmlIds stored.1 listed named
  obtain ⟨pattern, first, -⟩ := (snapshot_accepted_iff plain.nullName).mp ⟨read, parsed⟩ s located other routed
  refine ⟨s, List.mem_of_mem_filter (List.mem_of_mem_filter located), rfl, asInt_port plain s.tcpPort, stored.2, pattern, first, ?_⟩
  rw [referredName_eq routed, first]
  rfl

/-- What a router redirects to a cache matches a rule of that cache exactly when `Fits` holds. -/
theorem redirect_remapped_iff (plain : Plain java) {read : List ConfiguredCache × StatMap}
    (parsed : parseCacheConfig java config locations cdn.contentServers = .ok read) {configured : ConfiguredCache} (member : configured ∈ read.1)
    (loaded : Loaded configured cache) {row : Deliveryservice} (listed : row ∈ cdn.deliveryservices) (http : row.isDns = false)
    (reads : Reads row.json ds) (named : ds.id = row.xmlId) (referred : (cache.deliveryServices.lookup ds.id).isSome = true)
    (lower : ∀ s pattern, java.toLowerCase (row.remap cdn.domainName s pattern) = row.remap cdn.domainName s pattern)
    (unmarked : ∀ regex ∈ row.regexes, ¬"__http__".toList <:+: regex.pattern.toList)
    {path : String} (asked : request.uri = some ("/" ++ path)) {location : LocationRef} {memory after : Memory} {url : RoutedUrl α}
    (created : Routine.outcome (router.createCacheURL ds request location (some cache)) memory = (.ok url, after)) :
    ∃ s ∈ cdn.servers, s.hostName = configured.id ∧ ∃ regex ∈ row.regexes,
      (∃ query, url.text = cdn.uriBase s row regex.pattern (ds.useSecure request) ++ path ++ query) ∧
      (cdn.uriBase s row regex.pattern (ds.useSecure request) ∈ (row.mapFroms cdn.domainName s regex).map (Deliveryservice.atServer s) ↔
        Fits row s regex.pattern (ds.useSecure request)) ∧
      (Fits row s regex.pattern (ds.useSecure request) → ∀ header, ∃ before rest, cdn.remapDotConfig header s =
        before ++ "map\t" ++ cdn.uriBase s row regex.pattern (ds.useSecure request) ++ "     " ++ rest) := by
  obtain ⟨fqdn, found⟩ := Option.isSome_iff_exists.mp referred
  obtain ⟨s, server, same, port, routed, pattern, first, rfl⟩ :=
    referred_of_parsed plain parsed member listed (named ▸ loaded.deliveryServices ds.id fqdn found)
  obtain ⟨regex, inside, host, rfl⟩ := pattern_of_set first
  have rules := @prefix_mem_mapFroms row cdn.domainName s regex http host (unmarked regex inside) (ds.useSecure request) (isSsl_of_useSecure reads)
  refine ⟨s, server, same, regex, inside, ?_, rules, fun fits header => ?_⟩
  · obtain ⟨tinfo, text⟩ := createCacheURL_text found created
    have ports : ds.getPortString request (if ds.useSecure request then cache.httpsPort else cache.port) = s.uriPort (ds.useSecure request) := by
      rw [DeliveryService.getPortString, Server.uriPort, loaded.httpsPort, loaded.port, port]
      cases ds.useSecure request <;> simp
    rw [lower] at text
    rw [text, DeliveryService.createURIString, ports, DeliveryService.scheme, asked, Option.getD_some, Cdn.uriBase]
    simp only [String.append_assoc, String.append_right_inj]
    exact ⟨_, rfl⟩
  · obtain ⟨mapFrom, rule, at'⟩ := List.mem_map.mp (rules.mpr fits)
    simp only [Deliveryservice.isRouted, Bool.and_eq_true, decide_eq_true_eq] at routed
    obtain ⟨before, rest, file⟩ := mem_remapDotConfig listed routed.1.1.2 routed.1.1.1.2 inside rule header
    exact ⟨before, rest, file.trans (by rw [at']; rfl)⟩

end Redirects

end Topology
