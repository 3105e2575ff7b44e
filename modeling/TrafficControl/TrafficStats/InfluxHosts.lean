import TrafficControl.Lib.Runs
import Mathlib.Data.List.Nodup
import Mathlib.Data.List.Perm.Basic
import Mathlib.Logic.Function.Basic

set_option autoImplicit false

-- `influxConnect` on a configuration whose slice of hosts all calls share.
namespace TrafficStats.InfluxHosts

open Runs

variable {α γ : Type} [DecidableEq α]

structure InfluxDBProps (γ : Type) where
  url : String
  influxClient : Option γ

/-- The elements of `InfluxDBs` are pointers to the properties. -/
structure State (α γ : Type) where
  influxDBs : List α
  props : α → InfluxDBProps γ
  closed : List γ
  -- what the last call tried, and the client it returned, if it returned no error
  last : Option (List α × Option γ)

inductive Attempt (γ : Type) where
  -- `NewUDPClient` or `NewHTTPClient` returns an error
  | refused
  | made (con : γ) (pings : Bool)

def State.setClient (s : State α γ) (host : α) (con : γ) : State α γ :=
  { s with
    props := Function.update s.props host { s.props host with influxClient := some con }
    closed := s.closed ++ (s.props host).influxClient.toList }

variable (parse : String → Option String)

/-- `parse` gives the scheme. Where `url.Parse` returns nil, the next line panics. -/
def connectHost (s : State α γ) (host : α) (attempt : Attempt γ) : Option (State α γ × Option γ) :=
  (parse (s.props host).url).map fun scheme =>
    match attempt with
    | .refused => (s, none)
    | .made con pings =>
      if scheme = "udp" then (s, some con) else (s.setClient host con, if pings then some con else none)

/-- The array of the configuration is `hosts ++ behind`: `append(hosts[:n], hosts[n+1:]...)` writes into it. -/
def tryHosts (hosts behind tried : List α) (s : State α γ) : List (Nat × Attempt γ) → Option (State α γ)
  | [] =>
    match hosts with
    | [] => some { s with influxDBs := behind, last := some (tried, none) }
    | _ :: _ => none
  | (n, attempt) :: rest =>
    match hosts[n]? with
    | none => none
    | some host =>
      match connectHost parse s host attempt with
      | none => none
      | some (s', none) =>
        tryHosts (hosts.eraseIdx n) (hosts.getLast?.toList ++ behind) (tried ++ [host]) s' rest
      | some (s', some con) =>
        if rest.isEmpty then
          some { s' with
            influxDBs := hosts.eraseIdx n ++ (hosts.getLast?.toList ++ behind)
            last := some (tried ++ [host], some con) }
        else none

/-- A call is the list of the hosts that it draws, with what becomes of the connection to each. -/
def influxConnect (s : State α γ) (attempts : List (Nat × Attempt γ)) : Option (State α γ) :=
  tryHosts parse s.influxDBs [] [] s attempts

def Good (configured : List α) (s : State α γ) : Prop :=
  s.influxDBs.Perm configured ∧ ∀ tried, s.last = some (tried, none) → tried.Perm configured

def LastDrawn : Nat → List (Nat × Attempt γ) → Prop
  | _, [] => True
  | remaining, (n, _) :: rest => n + 1 = remaining ∧ LastDrawn (remaining - 1) rest

section Slices

variable {hosts behind : List α} {n : Nat} {host : α}

omit [DecidableEq α] in
theorem remove_subset : hosts.eraseIdx n ++ (hosts.getLast?.toList ++ behind) ⊆ hosts ++ behind := by
  intro other member
  simp only [List.mem_append, Option.mem_toList] at member ⊢
  rcases member with member | member | member
  · exact Or.inl (List.mem_of_mem_eraseIdx member)
  · exact Or.inl (List.mem_of_getLast? member)
  · exact Or.inr member

omit [DecidableEq α] in
theorem remove_last (found : hosts[n]? = some host) (isLast : n + 1 = hosts.length) :
    hosts.eraseIdx n ++ (hosts.getLast?.toList ++ behind) = hosts ++ behind := by
  have last : hosts.getLast? = some host := by
    rw [List.getLast?_eq_getElem?, ← isLast]
    exact found
  have split : hosts = hosts.eraseIdx n ++ [host] := by
    obtain ⟨bound, rfl⟩ := List.getElem?_eq_some_iff.mp found
    rw [List.eraseIdx_eq_take_drop_succ, isLast, List.drop_length, List.append_nil, List.take_append_getElem, isLast,
      List.take_length]
  rw [last, ← List.append_assoc]
  exact congrArg (· ++ behind) split.symm

omit [DecidableEq α] in
theorem remove_lost (found : hosts[n]? = some host) (earlier : n + 1 ≠ hosts.length)
    (distinct : (hosts ++ behind).Nodup) : host ∉ hosts.eraseIdx n ++ (hosts.getLast?.toList ++ behind) := by
  obtain ⟨bound, rfl⟩ := List.getElem?_eq_some_iff.mp found
  have nodup := (List.nodup_append.mp distinct).1
  simp only [List.mem_append, Option.mem_toList, not_or]
  refine ⟨?_, ?_, ?_⟩
  · have perm := List.getElem_cons_eraseIdx_perm bound
    exact (List.nodup_cons.mp (perm.nodup_iff.mpr nodup)).1
  · intro last
    rw [List.getLast?_eq_getElem?, List.getElem?_eq_some_iff] at last
    obtain ⟨_, same⟩ := last
    have index := (List.Nodup.getElem_inj_iff nodup).mp same
    omega
  · intro member
    exact (List.nodup_append.mp distinct).2.2 _ (List.getElem_mem bound) _ member rfl

end Slices

variable {parse}

/-- What a call leaves in the array, and what it has tried if it fails. -/
theorem tryHosts_subset {hosts behind tried : List α} {s t : State α γ} {attempts : List (Nat × Attempt γ)}
    (returned : tryHosts parse hosts behind tried s attempts = some t) : t.influxDBs ⊆ hosts ++ behind := by
  induction attempts generalizing hosts behind tried s with
  | nil =>
    cases hosts with
    | nil =>
      cases returned
      exact List.Subset.refl _
    | cons _ _ => cases returned
  | cons first rest ih =>
    obtain ⟨n, attempt⟩ := first
    simp only [tryHosts] at returned
    split at returned
    · cases returned
    · split at returned
      · cases returned
      · exact List.Subset.trans (ih returned) remove_subset
      · split at returned
        · cases returned
          exact remove_subset
        · cases returned

theorem tryHosts_tried {hosts behind tried : List α} {s t : State α γ} {attempts : List (Nat × Attempt γ)}
    (returned : tryHosts parse hosts behind tried s attempts = some t) :
    ∃ all client, t.last = some (all, client) ∧ (client = none → all.Perm (tried ++ hosts)) := by
  induction attempts generalizing hosts behind tried s with
  | nil =>
    cases hosts with
    | nil =>
      cases returned
      exact ⟨tried, none, rfl, fun _ => by simp⟩
    | cons _ _ => cases returned
  | cons first rest ih =>
    obtain ⟨n, attempt⟩ := first
    simp only [tryHosts] at returned
    split at returned
    · cases returned
    · next host found =>
      split at returned
      · cases returned
      · obtain ⟨all, client, last, perm⟩ := ih returned
        refine ⟨all, client, last, fun failed => (perm failed).trans ?_⟩
        obtain ⟨bound, rfl⟩ := List.getElem?_eq_some_iff.mp found
        rw [List.append_assoc]
        exact (List.getElem_cons_eraseIdx_perm bound).append_left tried
      · split at returned
        · cases returned
          exact ⟨_, _, rfl, nofun⟩
        · cases returned

/-- The array stays as it was exactly when the draws are always the last of the slice. -/
theorem tryHosts_perm_iff {hosts behind tried : List α} {s t : State α γ} {attempts : List (Nat × Attempt γ)}
    (distinct : (hosts ++ behind).Nodup) (returned : tryHosts parse hosts behind tried s attempts = some t) :
    t.influxDBs.Perm (hosts ++ behind) ↔ LastDrawn hosts.length attempts := by
  induction attempts generalizing hosts behind tried s with
  | nil =>
    cases hosts with
    | nil =>
      cases returned
      exact iff_of_true (List.Perm.refl _) trivial
    | cons _ _ => cases returned
  | cons first rest ih =>
    obtain ⟨n, attempt⟩ := first
    have kept := tryHosts_subset returned
    simp only [tryHosts] at returned
    simp only [LastDrawn]
    split at returned
    · cases returned
    · next host found =>
      have bound := (List.getElem?_eq_some_iff.mp found).1
      have member : host ∈ hosts ++ behind := List.mem_append_left _ (List.mem_of_getElem? found)
      by_cases isLast : n + 1 = hosts.length
      · have same : hosts.eraseIdx n ++ (hosts.getLast?.toList ++ behind) = hosts ++ behind := remove_last found isLast
        split at returned
        · cases returned
        · have later := ih (same ▸ distinct) returned
          rw [same, List.length_eraseIdx_of_lt bound] at later
          rw [later]
          exact (and_iff_right isLast).symm
        · split at returned
          · next ended =>
            cases returned
            obtain rfl := List.isEmpty_iff.mp ended
            exact iff_of_true (same ▸ List.Perm.refl _) ⟨isLast, trivial⟩
          · cases returned
      · have lost := remove_lost found isLast distinct
        refine iff_of_false (fun perm => ?_) fun drawn => isLast drawn.1
        have there := perm.mem_iff.mpr member
        split at returned
        · cases returned
        · exact lost (tryHosts_subset returned there)
        · split at returned
          · cases returned
            exact lost there
          · cases returned

theorem influxConnect_good_iff {configured : List α} (distinct : configured.Nodup) {s t : State α γ}
    {attempts : List (Nat × Attempt γ)} (good : Good configured s) (returned : influxConnect parse s attempts = some t) :
    Good configured t ↔ LastDrawn configured.length attempts := by
  have hosts := good.1
  have exact := tryHosts_perm_iff (by simpa using hosts.nodup_iff.mpr distinct) returned
  rw [List.append_nil, hosts.length_eq] at exact
  rw [← exact]
  constructor
  · exact fun kept => kept.1.trans hosts.symm
  · intro kept
    refine ⟨kept.trans hosts, fun tried failed => ?_⟩
    obtain ⟨all, client, last, perm⟩ := tryHosts_tried returned
    obtain ⟨rfl, rfl⟩ := Prod.mk.inj (Option.some.inj (last.symm.trans failed))
    exact (perm rfl).trans hosts

/-- The configured hosts stay, and a failed call has tried each of them once, as long as every call draws the last of the
hosts that remain. -/
theorem hostsPreserved_iff {s t : State α γ} (distinct : s.influxDBs.Nodup) (fresh : s.last = none)
    {calls : List (List (Nat × Attempt γ))} (ran : run (influxConnect parse) s calls = some t) :
    Always (influxConnect parse) (Good s.influxDBs) s calls ↔
      Throughout (influxConnect parse) (fun _ => LastDrawn s.influxDBs.length) s calls := by
  have starts : Good s.influxDBs s := ⟨List.Perm.refl _, by simp [fresh]⟩
  exact always_iff_of_run (fun _ _ _ => influxConnect_good_iff distinct) starts ran

def twoHosts : State Bool Nat where
  influxDBs := [false, true]
  props := fun host => { url := if host then "http://b:8086" else "http://a:8086", influxClient := none }
  closed := []
  last := none

theorem hostsPreserved_iff_twoHosts :
    Always (influxConnect fun _ => some "http") (Good twoHosts.influxDBs) twoHosts [[(1, .refused), (0, .made 7 true)]] ↔
      Throughout (influxConnect fun _ => some "http") (fun _ => LastDrawn 2) twoHosts
        [[(1, .refused), (0, .made 7 true)]] :=
  hostsPreserved_iff (by decide) rfl rfl

/-- The first call draws the first host and connects. The second finds the other host only, twice, and fails. -/
theorem not_hostsPreserved :
    ∃ t, run (influxConnect fun _ => some "http") twoHosts [[(0, .made 7 true)], [(1, .refused), (0, .refused)]] = some t ∧
      t.influxDBs = [true, true] ∧ t.last = some ([true, true], none) ∧
      ¬Always (influxConnect fun _ => some "http") (Good twoHosts.influxDBs) twoHosts
        [[(0, .made 7 true)], [(1, .refused), (0, .refused)]] := by
  refine ⟨_, rfl, rfl, rfl, fun always => ?_⟩
  have afterFirst := always_iff.mp always [[(0, .made 7 true)]] [[(1, .refused), (0, .refused)]] _ rfl rfl
  have perm : [true, true].Perm [false, true] := afterFirst.1
  exact absurd perm (by decide)

end TrafficStats.InfluxHosts
