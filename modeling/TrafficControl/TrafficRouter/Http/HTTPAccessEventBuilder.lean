import Mathlib.Data.Rat.Defs
import TrafficControl.Lib.KeyValueLine
import TrafficControl.Lib.TimeLayout
import TrafficControl.TrafficRouter.Loc.RegionalGeo
import TrafficControl.TrafficRouter.Router.TrafficRouter

set_option autoImplicit false

namespace TrafficControl.TrafficRouter

open KeyValueLine TimeLayout

structure HttpServletRequest where
  getRemoteAddr : Option String
  getRequestURL : Option String
  getQueryString : Option String
  getMethod : Option String
  getProtocol : Option String
  getHeader : String → Option String
  getParameter : String → Option String

-- `toString` of the constants.
def ResultType.toString : ResultType → String
  | ERROR => "ERROR"
  | CZ => "CZ"
  | GEO => "GEO"
  | MISS => "MISS"
  | STATIC_ROUTE => "STATIC_ROUTE"
  | DS_REDIRECT => "DS_REDIRECT"
  | DS_MISS => "DS_MISS"
  | INIT => "INIT"
  | FED => "FED"
  | RGDENY => "RGDENY"
  | RGALT => "RGALT"
  | GEO_REDIRECT => "GEO_REDIRECT"
  | DEEP_CZ => "DEEP_CZ"

def ResultDetails.toString : ResultDetails → String
  | NO_DETAILS => "NO_DETAILS"
  | DS_NOT_FOUND => "DS_NOT_FOUND"
  | DS_TLS_MISMATCH => "DS_TLS_MISMATCH"
  | DS_NO_BYPASS => "DS_NO_BYPASS"
  | DS_BYPASS => "DS_BYPASS"
  | DS_CZ_ONLY => "DS_CZ_ONLY"
  | DS_CLIENT_GEO_UNSUPPORTED => "DS_CLIENT_GEO_UNSUPPORTED"
  | GEO_NO_CACHE_FOUND => "GEO_NO_CACHE_FOUND"
  | REGIONAL_GEO_NO_RULE => "REGIONAL_GEO_NO_RULE"
  | REGIONAL_GEO_ALTERNATE_WITHOUT_CACHE => "REGIONAL_GEO_ALTERNATE_WITHOUT_CACHE"
  | REGIONAL_GEO_ALTERNATE_WITH_CACHE => "REGIONAL_GEO_ALTERNATE_WITH_CACHE"

def RegionalGeoResult.toString (this : RegionalGeoResult) : String :=
  this.postal.getD "-" ++ ":" ++ (if this.type = .ALLOWED then "1" else "0") ++ ":" ++
    (if this.type = .DENIED then "-" else if this.ruleType = none then "-" else if this.ruleType = some .INCLUDE then "I" else "X") ++ ":" ++
    (if this.usingFallbackConfig then "1" else "0") ++ ":" ++ (if this.allowedByWhiteList then "1" else "0")

-- Times are milliseconds and nanoseconds. A location is its latitude and longitude. The request headers are a map's entries.
structure HTTPAccessRecord where
  requestDate : Int
  requestNanoTime : Int
  request : HttpServletRequest
  responseURL : Option String
  responseURLs : Option (List String)
  responseCode : Int
  resultType : Option ResultType
  rerr : Option String
  resultDetails : Option ResultDetails
  resultLocation : Option (Rat × Rat)
  requestHeaders : Option (List (String × Option String))
  regionalGeoResult : Option RegionalGeoResult

namespace HTTPRequest

def X_MM_CLIENT_IP : String := "X-MM-Client-IP"
def FAKE_IP : String := "fakeClientIpAddress"

end HTTPRequest

namespace HTTPAccessEventBuilder

-- `%0*d`
def padded (width : Nat) (n : Int) : String :=
  String.ofList (if n < 0 then '-' :: pad (width - 1) n.natAbs else pad width n.natAbs)

-- `0.00`, rounded down.
def decimalFormat (value : Rat) : String :=
  let hundredths := value.num.natAbs * 100 / value.den
  String.ofList ((if value < 0 then ['-'] else []) ++ pad 1 (hundredths / 100) ++ '.' :: pad 2 (hundredths % 100))

-- `%.03f` of nanoseconds divided by a million.
def milliseconds (nanoseconds : Int) : String :=
  let microseconds := (nanoseconds.natAbs + 500) / 1000
  String.ofList ((if nanoseconds < 0 then ['-'] else []) ++ pad 1 (microseconds / 1000) ++ '.' :: pad 3 (microseconds % 1000))

def formatObject (o : Option String) : String := o.getD "-"

def formatRequest (request : HttpServletRequest) : String :=
  let url := formatObject request.getRequestURL
  if url = "-" then url
  else
    match request.getQueryString with
    | none => url
    | some queryString => if queryString.isEmpty then url else url ++ ("?" ++ queryString)

-- What is written of one header, if it has a value.
def headerText (entry : String × Option String) : Option String :=
  match entry.2 with
  | none => none
  | some value =>
    if value.isEmpty then none
    else some (entry.1 ++ ": " ++ String.ofList (value.toList.map fun c => if c = '"' then '\x27' else c))

def formatRequestHeaders (requestHeaders : Option (List (String × Option String))) : String :=
  match requestHeaders with
  | none => "rh=\"-\""
  | some [] => "rh=\"-\""
  | some entries => " ".intercalate ((entries.filterMap headerText).map fun text => "rh=\"" ++ text ++ "\"")

section Values

variable (this : HTTPAccessRecord)

def timeString : String := padded 0 (this.requestDate.tdiv 1000) ++ "." ++ padded 3 (this.requestDate.tmod 1000)

def remoteIp : String := formatObject this.request.getRemoteAddr

def chi : String :=
  match this.request.getHeader HTTPRequest.X_MM_CLIENT_IP with
  | some xMmClientIpHeader => xMmClientIpHeader
  | none =>
    match this.request.getParameter HTTPRequest.FAKE_IP with
    | some fakeIpParameter => fakeIpParameter
    | none => remoteIp this

def rhi : String := if remoteIp this ≠ chi this then remoteIp this else "-"

def resultType : String := formatObject (this.resultType.map ResultType.toString)

def resultDetails : String := if resultType this ≠ "-" then formatObject (this.resultDetails.map ResultDetails.toString) else "-"

def rloc : String :=
  match this.resultLocation with
  | none => "-"
  | some (latitude, longitude) => decimalFormat latitude ++ "," ++ decimalFormat longitude

def responseURLs : String := formatObject (this.responseURLs.map fun urls => "[" ++ ", ".intercalate urls ++ "]")

-- `nanoTime` is the clock when the line is made.
def create (nanoTime : Int) : String :=
  let line := timeString this ++ " qtype=HTTP chi=" ++ chi this ++ " rhi=" ++ rhi this
  let line := line ++ " url=\"" ++ formatRequest this.request ++ "\" cqhm=" ++ formatObject this.request.getMethod ++ " cqhv=" ++
    formatObject this.request.getProtocol ++ " rtype=" ++ resultType this ++ " rloc=\"" ++ rloc this ++ "\" rdtl=" ++ resultDetails this ++
    " rerr=\"" ++ formatObject this.rerr ++ "\" rgb=\"" ++ formatObject (this.regionalGeoResult.map RegionalGeoResult.toString) ++ "\""
  let line := if this.responseCode ≠ -1 then
      line ++ " pssc=" ++ padded 0 this.responseCode ++ " ttms=" ++ milliseconds (nanoTime - this.requestNanoTime)
    else line
  line ++ (" rurl=\"" ++ formatObject this.responseURL ++ "\"") ++ (" rurls=\"" ++ responseURLs this ++ "\" ") ++
    formatRequestHeaders this.requestHeaders

end Values

end HTTPAccessEventBuilder

end TrafficControl.TrafficRouter
