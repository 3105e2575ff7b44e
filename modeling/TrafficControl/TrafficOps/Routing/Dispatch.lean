import TrafficControl.Lib.FirstMatch
import TrafficControl.TrafficOps.Routing.Tables

set_option autoImplicit false

-- Which requests reach the handler of a route, and which the catch-all.
namespace Routing

open DoubleText FirstMatch Submatch

variable {H : Type} (wrappers : Wrappers H) (table : List (WrittenRoute H)) (method : String) (requested : List Char)

section Loop

variable {requested}

theorem tryRoutes_none {entries : List (WrittenRoute H × Rat)} (index : Nat)
    (absent : ∀ entry ∈ entries, ¬ Occurs entry.2 entry.1.path requested) :
    tryRoutes requested index (entries.map (compiled wrappers)) = .ok .catchall := by
  induction entries generalizing index with
  | nil => rfl
  | cons entry entries ih =>
    obtain ⟨first, others⟩ := List.forall_mem_cons.mp absent
    have unmatched : findSubmatch (compiled wrappers entry).regex requested = none := by
      rw [← Option.not_isSome_iff_eq_none]
      exact fun found => first (findSubmatch_iff.mp found)
    rw [List.map_cons, tryRoutes, unmatched]
    exact ih (index + 1) others

theorem bind_route (bound : Except String (AList fun _ : List Char => List Char)) (index : Nat) (h : H) :
    (do let params ← bound; return Served.route index h params) = bound.map (Served.route index h) := by
  cases bound <;> rfl

/-- The first route that occurs is the one that is served. -/
theorem tryRoutes_first {entries : List (WrittenRoute H × Rat)} {entry : WrittenRoute H × Rat} (index : Nat)
    (first : IsFirst (fun entry => Occurs entry.2 entry.1.path requested) entries entry) :
    ∃ place found, entries[place]? = some entry ∧ findSubmatch (compiled wrappers entry).regex requested = some found ∧
      tryRoutes requested index (entries.map (compiled wrappers)) =
        (bindParams (compiled wrappers entry).params found).map
          (.route (index + place) (wrapped wrappers entry.1.route)) := by
  induction entries generalizing index with
  | nil => cases first.mem
  | cons other entries ih =>
    rcases isFirst_cons.mp first with ⟨occurs, rfl⟩ | ⟨absent, later⟩
    · obtain ⟨found, matched⟩ := Option.isSome_iff_exists.mp (findSubmatch_iff.mpr occurs)
      have own : findSubmatch (compiled wrappers entry).regex requested = some found := matched
      refine ⟨0, found, rfl, own, ?_⟩
      rw [List.map_cons, tryRoutes, own]
      exact bind_route _ _ _
    · have unmatched : findSubmatch (compiled wrappers other).regex requested = none := by
        rw [← Option.not_isSome_iff_eq_none]
        exact fun found => absent (findSubmatch_iff.mp found)
      obtain ⟨place, found, there, matched, served⟩ := ih (index + 1) later
      refine ⟨place + 1, found, there, matched, ?_⟩
      rw [List.map_cons, tryRoutes, unmatched]
      dsimp only
      rw [served, Nat.add_assoc, Nat.add_comm 1 place]

end Loop

/-- The request is that of the route as a whole, under a version of its major that is not below its own. -/
def Answers (entry : WrittenRoute H × Rat) : Prop :=
  entry.1.version ≤ entry.2 ∧ major entry.2 = major entry.1.version ∧ Whole entry.2 entry.1.path requested

def Hit (entry : WrittenRoute H × Rat) : Prop := Registered entry ∧ Occurs entry.2 entry.1.path requested

/-- The first route that answers is served with the texts of its parameters, and every other request goes to the
catch-all. -/
structure Dispatches : Prop where
  route : ∀ entry, IsFirst (Answers requested) (pairs table method) entry → ∃ index params,
    serve wrappers (table.map (·.route)) method ('/' :: requested) =
        .ok (.route index (wrapped wrappers entry.1.route) params) ∧
      (registered table method)[index]? = some entry ∧
      ∀ p ∈ bindings entry.1.path requested, params.lookup p.1 = some p.2
  catchall : (∀ entry ∈ pairs table method, ¬ Answers requested entry) →
    serve wrappers (table.map (·.route)) method ('/' :: requested) = .ok .catchall

section Serve

variable {table method requested} {entry : WrittenRoute H × Rat}

theorem first_registered :
    IsFirst (fun entry => Occurs entry.2 entry.1.path requested) (registered table method) entry ↔
      IsFirst (Hit requested) (pairs table method) entry := by
  unfold registered
  rw [isFirst_filter]
  simp only [decide_eq_true_eq]
  rfl

theorem serve_none (none : ∀ entry ∈ pairs table method, ¬ Hit requested entry) :
    serve wrappers (table.map (·.route)) method ('/' :: requested) = .ok .catchall := by
  rw [serve_eq]
  refine tryRoutes_none wrappers 0 fun entry member occurs => ?_
  obtain ⟨listed, own⟩ := List.mem_filter.mp member
  exact none entry listed ⟨of_decide_eq_true own, occurs⟩

theorem serve_first (first : IsFirst (Hit requested) (pairs table method) entry) :
    ∃ place found, (registered table method)[place]? = some entry ∧
      findSubmatch (compiled wrappers entry).regex requested = some found ∧
      serve wrappers (table.map (·.route)) method ('/' :: requested) =
        (bindParams (compiled wrappers entry).params found).map (.route place (wrapped wrappers entry.1.route)) := by
  obtain ⟨place, found, there, matched, served⟩ := tryRoutes_first wrappers 0 (first_registered.mpr first)
  rw [Nat.zero_add] at served
  exact ⟨place, found, there, matched, (serve_eq wrappers table method requested).trans served⟩

theorem Answers.hit (answers : Answers requested entry) (own : Registered entry) : Hit requested entry :=
  ⟨own, answers.2.2.occurs⟩

/-- A route that is hit as a whole is served with the texts of its segments. -/
theorem serve_whole (first : IsFirst (Hit requested) (pairs table method) entry)
    (whole : Whole entry.2 entry.1.path requested) :
    ∃ place, (registered table method)[place]? = some entry ∧
      serve wrappers (table.map (·.route)) method ('/' :: requested) =
        .ok (.route place (wrapped wrappers entry.1.route) (params (bindings entry.1.path requested))) := by
  obtain ⟨place, found, there, matched, served⟩ := serve_first wrappers first
  obtain ⟨text, more, whole_match, same⟩ := findSubmatch_whole whole
  obtain rfl : text :: ((bindings entry.1.path requested).map Prod.snd ++ more) = found :=
    Option.some.inj (whole_match.symm.trans matched)
  have bound : bindParams (compiled wrappers entry).params (text :: ((bindings entry.1.path requested).map Prod.snd ++ more)) =
      .ok (params (bindings entry.1.path requested)) := by
    have named : (compiled wrappers entry).params = (bindings entry.1.path requested).map Prod.fst := same
    rw [named, bindParams_pairs]
  rw [bound] at served
  exact ⟨place, there, served⟩

theorem registered_of_getElem {index : Nat} (there : (registered table method)[index]? = some entry) : Registered entry :=
  of_decide_eq_true (List.mem_filter.mp (List.mem_of_getElem? there)).2

end Serve

/-- Requests are dispatched to the routes that they are made for exactly when the first route that occurs anywhere in
the request, with any character for the point of its version, or that answers it, is registered and answers it. -/
theorem dispatches_iff : Dispatches wrappers table method requested ↔
    ∀ entry, IsFirst (fun entry => Hit requested entry ∨ Answers requested entry) (pairs table method) entry →
      Registered entry ∧ Answers requested entry ∧ Consistent (bindings entry.1.path requested) := by
  constructor
  · intro dispatches entry first
    have answered : ∃ answering ∈ pairs table method, Answers requested answering := by
      by_contra none
      push Not at none
      have hit := first.narrow (fun _ _ => Or.inl) (first.holds.resolve_right (none entry first.mem))
      obtain ⟨_, found, _, _, served⟩ := serve_first wrappers hit
      rw [dispatches.catchall none] at served
      obtain ⟨_, _, routed⟩ := ExceptList.map_ok served.symm
      cases routed
    obtain ⟨answering, leading⟩ := exists_isFirst answered
    obtain ⟨index, texts, served, there, right⟩ := dispatches.route answering leading
    have own := registered_of_getElem there
    have answers := leading.holds
    have same : entry = answering := by
      rcases first.holds with hit | answer
      · obtain ⟨place, found, there', _, served'⟩ := serve_first wrappers (first.narrow (fun _ _ => Or.inl) hit)
        obtain ⟨_, _, routed⟩ := ExceptList.map_ok (served'.symm.trans served)
        obtain rfl : place = index := (Served.route.inj routed).1
        exact Option.some.inj (there'.symm.trans there)
      · exact (first.narrow (fun _ _ => Or.inr) answer).unique leading
    subst same
    obtain ⟨place, _, served'⟩ := serve_whole wrappers (first.narrow (fun _ _ => Or.inl) (answers.hit own)) answers.2.2
    obtain rfl : params (bindings entry.1.path requested) = texts :=
      (Served.route.inj (Except.ok.inj (served'.symm.trans served))).2.2
    exact ⟨own, answers, consistent_iff.mp right⟩
  · intro condition
    have leading {entry : WrittenRoute H × Rat} (first : IsFirst (Answers requested) (pairs table method) entry) :
        Consistent (bindings entry.1.path requested) ∧ IsFirst (Hit requested) (pairs table method) entry := by
      have reached : ∃ entry ∈ pairs table method, Hit requested entry ∨ Answers requested entry :=
        ⟨entry, first.mem, Or.inr first.holds⟩
      obtain ⟨front, leads⟩ := exists_isFirst reached
      obtain ⟨own, answers, consistent⟩ := condition front leads
      obtain rfl := (leads.narrow (fun _ _ => Or.inr) answers).unique first
      exact ⟨consistent, leads.narrow (fun _ _ => Or.inl) (answers.hit own)⟩
    constructor
    · intro entry first
      obtain ⟨consistent, hit⟩ := leading first
      obtain ⟨place, there, served⟩ := serve_whole wrappers hit first.holds.2.2
      exact ⟨place, _, served, there, consistent_iff.mpr consistent⟩
    · intro none
      refine serve_none wrappers fun entry member hit => ?_
      have reached : ∃ entry ∈ pairs table method, Hit requested entry ∨ Answers requested entry := ⟨entry, member, Or.inl hit⟩
      obtain ⟨front, leads⟩ := exists_isFirst reached
      exact none front leads.mem (condition front leads).2.1

-- `asns/?(\.json)?$`, which is checked for a privilege level.
def asns : WrittenRoute String where
  version := nearest 12 10
  method := "GET"
  path := ⟨.literal ⟨"asns".toList, plain_of_all (by decide)⟩, [], some ⟨true, some ⟨"json".toList, plain_of_all (by decide)⟩⟩⟩
  handler := "ASNsHandler"
  requiredPrivLevel := 10
  authenticated := true
  middlewares := none

theorem asns_version : formatFloat (nearest 12 10) = "1.2".toList := by decide +kernel

theorem asns_hit : Hit "x/api/1.2/asns".toList (asns, asns.version) := by
  refine ⟨by decide +kernel, "x/".toList, "1.2".toList, "asns".toList, [], by decide, ?_, ?_, fun _ => rfl⟩
  · exact asns_version ▸ loosely_formatFloat (nearest 12 10)
  · exact ⟨"asns".toList, [], [], by decide, rfl, .nil, ⟨⟨[], [], rfl, Or.inl rfl, Or.inl rfl⟩⟩⟩

def labels : Wrappers String := ⟨fun _ h => "auth " ++ h, fun h => "headers " ++ h⟩

/-- The request only ends like one of the route, and reaches its handler. -/
theorem front_ignored : ¬ Dispatches labels [asns] "GET" "x/api/1.2/asns".toList := by
  intro dispatches
  have none : ∀ entry ∈ pairs [asns] "GET", ¬ Answers "x/api/1.2/asns".toList entry := by
    rintro entry _ ⟨_, _, body, same, _⟩
    cases same
  have hit : ∃ entry ∈ pairs [asns] "GET", Hit "x/api/1.2/asns".toList entry :=
    ⟨(asns, asns.version), mem_pairs [asns] List.mem_cons_self List.mem_cons_self, asns_hit⟩
  obtain ⟨entry, first⟩ := exists_isFirst hit
  obtain ⟨_, found, _, _, served⟩ := serve_first labels first
  rw [dispatches.catchall none] at served
  obtain ⟨_, _, routed⟩ := ExceptList.map_ok served.symm
  cases routed

end Routing
