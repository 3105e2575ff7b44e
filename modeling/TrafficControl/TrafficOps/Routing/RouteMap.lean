import TrafficControl.Lib.Appends
import TrafficControl.Lib.BinarySearch
import TrafficControl.Lib.DoubleText
import TrafficControl.Lib.ExceptList
import TrafficControl.Lib.Submatch
import Mathlib.Algebra.Order.Ring.Rat
import Mathlib.Data.List.Sort
import Mathlib.Data.List.Dedup

set_option autoImplicit false

namespace Routing

open Appends DoubleText

def routePrefix : List Char := "api".toList

-- A version is a finite double.
structure Route (H : Type) where
  version : Rat
  method : String
  path : List Char
  handler : H
  requiredPrivLevel : Int
  authenticated : Bool
  middlewares : Option (List (H → H))

structure PathHandler (H : Type) where
  path : List Char
  handler : H

structure CompiledRoute (H : Type) where
  handler : H
  regex : Submatch.Expr
  params : List (List Char)

/-- What the routing takes from elsewhere: the check of a privilege level and the default middleware. -/
structure Wrappers (H : Type) where
  getWrapper : Int → H → H
  wrapHeaders : H → H

section Create

variable {H : Type} (wrappers : Wrappers H)

def getSortedRouteVersions (rs : List (Route H)) : List Rat :=
  (rs.map (·.version)).dedup.insertionSort (· ≤ ·)

def searchFloat64s (versions : List Rat) (version : Rat) : Nat :=
  BinarySearch.first versions.length (BinarySearch.reaches versions version)

-- `int(r.Version)`
def major (version : Rat) : Int := toInt64 (.finite version)

def nextMajorVer (version : Rat) : Rat := (MachineInt.toDouble (major version + 1) : Int)

/-- The first middleware is the outermost. -/
def use (h : H) (middlewares : List (H → H)) : H := middlewares.foldr (fun middleware h => middleware h) h

def wrapped (r : Route H) : H :=
  let middlewares := r.middlewares.getD [wrappers.wrapHeaders]
  use r.handler (if r.authenticated then wrappers.getWrapper r.requiredPrivLevel :: middlewares else middlewares)

def fullPath (r : Route H) (version : Rat) : List Char := routePrefix ++ '/' :: formatFloat version ++ '/' :: r.path

def createRouteMap (rs : List (Route H)) : AList fun _ : String => List (PathHandler H) :=
  let versions := getSortedRouteVersions rs
  rs.foldl (fun m r =>
    ((versions.drop (searchFloat64s versions r.version)).takeWhile (· < nextMajorVer r.version)).foldl
      (fun m version => append m r.method ⟨fullPath r version, wrapped wrappers r⟩) m) ∅

end Create

section Compile

variable {H : Type}

def segmentRegex : List Char := "([^/]+)".toList

-- Every step takes an opening brace away.
def replaceParams : Nat → List Char → List (List Char) → Except String (List Char × List (List Char))
  | 0, _, _ => .error "out of steps"
  | steps + 1, route, params =>
    match route.idxOf? '\x7b' with
    | none | some 0 => .ok (route, params)
    | some (before + 1) =>
      let opening := before + 1
      match route.idxOf? '\x7d' with
      | none => .error "malformed route"
      | some closing =>
        if closing < opening + 1 then .error "slice bounds out of range"
        else
          let param := (route.take closing).drop (opening + 1)
          replaceParams steps (route.take opening ++ segmentRegex ++ route.drop (closing + 1)) (params ++ [param])

def compileRoute (pathHandler : PathHandler H) : Except String (CompiledRoute H) := do
  let (route, params) ← replaceParams (pathHandler.path.count '\x7b' + 1) pathHandler.path []
  let regex ← Submatch.parse route
  return ⟨pathHandler.handler, regex, params⟩

def compileMethod (compiledRoutes : AList fun _ : String => List (CompiledRoute H)) (method : String)
    (mRoutes : List (PathHandler H)) : Except String (AList fun _ : String => List (CompiledRoute H)) :=
  mRoutes.foldlM (fun compiledRoutes pathHandler => do
    let compiled ← compileRoute pathHandler
    return append compiledRoutes method compiled) compiledRoutes

-- The order of the methods does not matter, as each has a list of its own.
def compileRoutes (routes : AList fun _ : String => List (PathHandler H)) :
    Except String (AList fun _ : String => List (CompiledRoute H)) :=
  routes.entries.foldlM (fun compiledRoutes entry => compileMethod compiledRoutes entry.1 entry.2) ∅

end Compile

section Serve

variable {H : Type}

-- A route that is served comes with its place among the routes of the method.
inductive Served (H : Type) where
  | catchall
  | route (index : Nat) (handler : H) (params : AList fun _ : List Char => List Char)

-- `params[v] = match[i+1]`
def bindParam (found : List (List Char)) (bound : AList fun _ : List Char => List Char) (param : List Char × Nat) :
    Except String (AList fun _ : List Char => List Char) :=
  match found[param.2 + 1]? with
  | none => .error "index out of range"
  | some value => .ok (bound.insert param.1 value)

def bindParams (params : List (List Char)) (found : List (List Char)) :
    Except String (AList fun _ : List Char => List Char) := params.zipIdx.foldlM (bindParam found) ∅

def tryRoutes (requested : List Char) : Nat → List (CompiledRoute H) → Except String (Served H)
  | _, [] => .ok .catchall
  | index, compiledRoute :: mRoutes =>
    match Submatch.findSubmatch compiledRoute.regex requested with
    | none => tryRoutes requested (index + 1) mRoutes
    | some found => do
      let params ← bindParams compiledRoute.params found
      return .route index compiledRoute.handler params

def handler (routes : AList fun _ : String => List (CompiledRoute H)) (method : String) (path : List Char) :
    Except String (Served H) :=
  match path with
  | [] => .error "slice bounds out of range"
  | _ :: requested =>
    match routes.lookup method with
    | none => .ok .catchall
    | some mRoutes => tryRoutes requested 0 mRoutes

def serve (wrappers : Wrappers H) (rs : List (Route H)) (method : String) (path : List Char) : Except String (Served H) := do
  let routes ← compileRoutes (createRouteMap wrappers rs)
  handler routes method path

end Serve

end Routing
