import TrafficControl.Lib.KeyedLoop
import TrafficControl.Lib.Runs

set_option autoImplicit false

namespace TrafficControl.TrafficMonitor.Polling

open KeyedLoop Runs

structure PollConfig where
  url : String
  host : String
  timeout : Int
  format : String
deriving DecidableEq

structure HttpPollerConfig where
  urls : AList fun _ : String => PollConfig
  interval : Int
  noKeepAlive : Bool

structure HTTPPollInfo extends PollConfig where
  noKeepAlive : Bool
  interval : Int
  id : String
deriving DecidableEq

-- The process has one `http.DefaultTransport`.
inductive Transport where
  | own
  | default
deriving DecidableEq

structure Client where
  timeout : Int
  transport : Transport
deriving DecidableEq

-- A goroutine of `poller`, with the number of the channel that it dies by.
structure LivePoller where
  id : String
  url : String
  host : String
  format : String
  interval : Int
  client : Client
  kill : Nat
deriving DecidableEq

-- `live` are the pollers that were started and not told to die.
structure HttpPoller where
  config : HttpPollerConfig
  killChans : AList fun _ : String => Nat
  live : List LivePoller
  made : Nat

-- The orders in which a diff visits the old and the new polls.
structure DiffOrders where
  old : List String → List String
  new : List String → List String
  old_perm : ∀ keys, (old keys).Perm keys
  new_perm : ∀ keys, (new keys).Perm keys

def HttpPollerConfig.info (this : HttpPollerConfig) (id : String) (pollCfg : PollConfig) : HTTPPollInfo :=
  { pollCfg with noKeepAlive := this.noKeepAlive, interval := this.interval, id }

-- The turns of the two loops of a diff that keeps the interval.
def deletion (new : HttpPollerConfig) (entry : String × PollConfig) : Option String :=
  match new.urls.lookup entry.1 with
  | none => some entry.1
  | some newPollCfg => if newPollCfg ≠ entry.2 then some entry.1 else none

def change (new : HttpPollerConfig) (entry : String × PollConfig) : Option HTTPPollInfo :=
  match new.urls.lookup entry.1 with
  | none => none
  | some newPollCfg => if newPollCfg ≠ entry.2 then some (new.info entry.1 newPollCfg) else none

def addition (old new : HttpPollerConfig) (entry : String × PollConfig) : Option HTTPPollInfo :=
  match old.urls.lookup entry.1 with
  | none => some (new.info entry.1 entry.2)
  | some _ => none

def diffConfigs (orders : DiffOrders) (old new : HttpPollerConfig) : List String × List HTTPPollInfo :=
  let oldUrls := inOrder orders.old old.urls
  let newUrls := inOrder orders.new new.urls
  if old.interval ≠ new.interval ∨ old.noKeepAlive ≠ new.noKeepAlive then
    (oldUrls.map fun entry => entry.1, newUrls.map fun entry => new.info entry.1 entry.2)
  else (oldUrls.filterMap (deletion new), oldUrls.filterMap (change new) ++ newUrls.filterMap (addition old new))

-- The client of a poller. The template is copied unless it is used as it is.
def Client.of (template : Client) (info : HTTPPollInfo) : Client :=
  if info.timeout ≠ 0 ∨ info.noKeepAlive = true then
    { timeout := if info.timeout ≠ 0 then info.timeout else template.timeout
      transport := if info.noKeepAlive then .default else template.transport }
  else template

namespace HttpPoller

/-- A poller before its first config. -/
def new (interval : Int) : HttpPoller := ⟨⟨∅, interval, false⟩, ∅, [], 0⟩

-- A send on a channel that is nil reaches nobody.
def delete (this : HttpPoller) (id : String) : HttpPoller :=
  match this.killChans.lookup id with
  | none => this
  | some killChan =>
    { this with killChans := this.killChans.erase id, live := this.live.filter fun poller => poller.kill ≠ killChan }

def started (template : Client) (info : HTTPPollInfo) (kill : Nat) : LivePoller where
  id := info.id
  url := info.url
  host := info.host
  format := info.format
  interval := info.interval
  client := template.of info
  kill := kill

def add (template : Client) (this : HttpPoller) (info : HTTPPollInfo) : HttpPoller :=
  { this with killChans := this.killChans.insert info.id this.made
              live := this.live ++ [started template info this.made]
              made := this.made + 1 }

/-- One turn of the loop of `Poll`. -/
def configure (template : Client) (orders : DiffOrders) (this : HttpPoller) (newConfig : HttpPollerConfig) : HttpPoller :=
  let (deletions, additions) := diffConfigs orders this.config newConfig
  let this := additions.foldl (add template) (deletions.foldl delete this)
  { this with config := newConfig }

end HttpPoller

inductive Kind where
  | stat
  | health
  | peer
deriving DecidableEq

-- The pollers of the monitor, and the setting of the transport that all of the process share.
structure System where
  pollers : Kind → HttpPoller
  disableKeepAlives : Bool

-- A config that is sent to one of them.
structure Sent where
  kind : Kind
  newConfig : HttpPollerConfig
  orders : DiffOrders

namespace System

def new (interval : Kind → Int) : System := ⟨fun kind => HttpPoller.new (interval kind), false⟩

-- A poller without keep-alives turns them off in the shared transport; nothing turns them on again.
def send (template : Client) (this : System) (sent : Sent) : System where
  pollers := Function.update this.pollers sent.kind ((this.pollers sent.kind).configure template sent.orders sent.newConfig)
  disableKeepAlives := this.disableKeepAlives ||
    (diffConfigs sent.orders (this.pollers sent.kind).config sent.newConfig).2.any fun info => info.noKeepAlive

def keepAlivesDisabled (this : System) (poller : LivePoller) : Bool :=
  match poller.client.transport with
  | .own => false
  | .default => this.disableKeepAlives

end System

section Diff

variable (orders : DiffOrders) {old new : HttpPollerConfig}

/-- The poll that a config asks for. -/
def HttpPollerConfig.wanted (this : HttpPollerConfig) (id : String) : Option HTTPPollInfo :=
  (this.urls.lookup id).map (this.info id)

theorem wanted_id {config : HttpPollerConfig} {id : String} {info : HTTPPollInfo} (wanted : config.wanted id = some info) :
    info.id = id ∧ info.noKeepAlive = config.noKeepAlive := by
  obtain ⟨pollCfg, -, rfl⟩ := Option.map_eq_some_iff.mp wanted
  exact ⟨rfl, rfl⟩

theorem info_inj {config : HttpPollerConfig} {id id' : String} {pollCfg pollCfg' : PollConfig} :
    config.info id pollCfg = config.info id' pollCfg' ↔ id = id' ∧ pollCfg = pollCfg' := by
  constructor
  · intro same
    have parts := HTTPPollInfo.mk.inj same
    exact ⟨parts.2.2.2, parts.1⟩
  · rintro ⟨rfl, rfl⟩
    rfl

/-- What a diff is: the polls that the new config does not want as they are, and those that it wants otherwise. -/
structure Diff (old new : HttpPollerConfig) (deletions : List String) (additions : List HTTPPollInfo) : Prop where
  deleted : ∀ id, id ∈ deletions ↔ (old.wanted id).isSome ∧ new.wanted id ≠ old.wanted id
  added : ∀ info, info ∈ additions ↔ new.wanted info.id = some info ∧ old.wanted info.id ≠ some info
  once : (additions.map fun info => info.id).Nodup

theorem mem_ids {config : HttpPollerConfig} {order : List String → List String} (perm : ∀ keys, (order keys).Perm keys)
    (id : String) : id ∈ (inOrder order config.urls).map (fun entry => entry.1) ↔ (config.wanted id).isSome := by
  simp [HttpPollerConfig.wanted, mem_inOrder perm, Option.isSome_iff_exists]

theorem deletion_iff {entry : String × PollConfig} {id : String} :
    deletion new entry = some id ↔ entry.1 = id ∧ new.urls.lookup entry.1 ≠ some entry.2 := by
  unfold deletion
  cases new.urls.lookup entry.1 with
  | none => simp
  | some pollCfg => by_cases same : pollCfg = entry.2 <;> simp [same]

theorem change_iff {entry : String × PollConfig} {info : HTTPPollInfo} : change new entry = some info ↔
    ∃ pollCfg, new.urls.lookup entry.1 = some pollCfg ∧ pollCfg ≠ entry.2 ∧ info = new.info entry.1 pollCfg := by
  unfold change
  cases new.urls.lookup entry.1 with
  | none => simp
  | some pollCfg => by_cases same : pollCfg = entry.2 <;> simp [same, eq_comm]

theorem addition_iff {entry : String × PollConfig} {info : HTTPPollInfo} : addition old new entry = some info ↔
    old.urls.lookup entry.1 = none ∧ info = new.info entry.1 entry.2 := by
  unfold addition
  cases old.urls.lookup entry.1 <;> simp [eq_comm]

theorem filterMap_ids {entries : List (String × PollConfig)} {f : String × PollConfig → Option HTTPPollInfo}
    (own : ∀ entry info, f entry = some info → info.id = entry.1) :
    ((entries.filterMap f).map fun info => info.id).Sublist (entries.map fun entry => entry.1) := by
  induction entries with
  | nil => exact .slnil
  | cons entry entries ih =>
    cases found : f entry with
    | none =>
      rw [List.filterMap_cons_none found]
      exact ih.cons _
    | some info =>
      rw [List.filterMap_cons_some found, List.map_cons, List.map_cons, own entry info found]
      exact ih.cons_cons _

theorem diffConfigs_changed (changed : old.interval ≠ new.interval ∨ old.noKeepAlive ≠ new.noKeepAlive) :
    Diff old new ((inOrder orders.old old.urls).map fun entry => entry.1)
      ((inOrder orders.new new.urls).map fun entry => new.info entry.1 entry.2) := by
  have differ : ∀ id info, new.wanted id = some info → old.wanted id ≠ some info := by
    intro id info wanted wanted'
    obtain ⟨pollCfg, -, rfl⟩ := Option.map_eq_some_iff.mp wanted
    obtain ⟨pollCfg', -, same⟩ := Option.map_eq_some_iff.mp wanted'
    have parts := HTTPPollInfo.mk.inj same
    obtain interval | keepAlive := changed
    · exact interval parts.2.2.1
    · exact keepAlive parts.2.1
  constructor
  case deleted =>
    intro id
    rw [mem_ids orders.old_perm]
    refine ⟨fun is => ⟨is, fun same => ?_⟩, And.left⟩
    obtain ⟨info, wanted⟩ := Option.isSome_iff_exists.mp is
    exact differ id info (same.trans wanted) wanted
  case added =>
    intro info
    simp only [List.mem_map, Prod.exists, mem_inOrder orders.new_perm]
    constructor
    · rintro ⟨id, pollCfg, found, rfl⟩
      have wanted : new.wanted id = some (new.info id pollCfg) := by rw [HttpPollerConfig.wanted, found]; rfl
      exact ⟨wanted, differ id _ wanted⟩
    · rintro ⟨wanted, -⟩
      obtain ⟨pollCfg, found, same⟩ := Option.map_eq_some_iff.mp wanted
      exact ⟨info.id, pollCfg, found, same⟩
  case once =>
    rw [List.map_map]
    exact nodup_inOrder orders.new_perm new.urls

theorem diffConfigs_kept (interval : old.interval = new.interval) (keepAlive : old.noKeepAlive = new.noKeepAlive) :
    Diff old new ((inOrder orders.old old.urls).filterMap (deletion new))
      ((inOrder orders.old old.urls).filterMap (change new) ++
        (inOrder orders.new new.urls).filterMap (addition old new)) := by
  have same : ∀ id, old.info id = new.info id := by
    intro id
    funext pollCfg
    rw [HttpPollerConfig.info, HttpPollerConfig.info, interval, keepAlive]
  have wants : ∀ id, old.wanted id = new.wanted id ↔ old.urls.lookup id = new.urls.lookup id := by
    intro id
    rw [HttpPollerConfig.wanted, HttpPollerConfig.wanted, same]
    refine (Option.map_injective fun pollCfg pollCfg' infos => ?_).eq_iff
    exact (info_inj.mp infos).2
  constructor
  case deleted =>
    intro id
    simp only [List.mem_filterMap, Prod.exists, mem_inOrder orders.old_perm, deletion_iff]
    constructor
    · rintro ⟨_, pollCfg, found, rfl, differs⟩
      refine ⟨by rw [HttpPollerConfig.wanted, found]; rfl, fun kept => differs ?_⟩
      exact ((wants _).mp kept.symm).symm.trans found
    · rintro ⟨is, differs⟩
      obtain ⟨pollCfg, found⟩ := Option.isSome_iff_exists.mp ((Option.isSome_map).symm.trans is)
      exact ⟨id, pollCfg, found, rfl, fun kept => differs ((wants id).mpr (found.trans kept.symm)).symm⟩
  case added =>
    intro info
    simp only [List.mem_append, List.mem_filterMap, Prod.exists, mem_inOrder orders.old_perm, mem_inOrder orders.new_perm,
      change_iff, addition_iff]
    constructor
    · rintro (⟨id, oldCfg, known, pollCfg, found, differs, rfl⟩ | ⟨id, pollCfg, found, unknown, rfl⟩)
      · refine ⟨by rw [HttpPollerConfig.wanted]; exact congrArg _ found, fun kept => differs ?_⟩
        have both := (wants id).mp (kept.trans (by rw [HttpPollerConfig.wanted, found]; rfl))
        exact (Option.some.inj (known.symm.trans (both.trans found))).symm
      · refine ⟨by rw [HttpPollerConfig.wanted]; exact congrArg _ found, fun kept => ?_⟩
        rw [HttpPollerConfig.wanted, show (new.info id pollCfg).id = id from rfl, unknown] at kept
        cases kept
    · rintro ⟨wanted, differs⟩
      obtain ⟨pollCfg, found, own⟩ := Option.map_eq_some_iff.mp wanted
      cases known : old.urls.lookup info.id with
      | none => exact Or.inr ⟨info.id, pollCfg, found, known, own.symm⟩
      | some oldCfg =>
        refine Or.inl ⟨info.id, oldCfg, known, pollCfg, found, fun kept => differs ?_, own.symm⟩
        rw [(wants info.id).mpr (known.trans (kept ▸ found.symm))]
        exact wanted
  case once =>
    rw [List.map_append, List.nodup_append]
    refine ⟨?_, ?_, ?_⟩
    · refine (filterMap_ids fun entry info found => ?_).nodup (nodup_inOrder orders.old_perm old.urls)
      obtain ⟨pollCfg, -, -, rfl⟩ := change_iff.mp found
      rfl
    · refine (filterMap_ids fun entry info found => ?_).nodup (nodup_inOrder orders.new_perm new.urls)
      obtain ⟨-, rfl⟩ := addition_iff.mp found
      rfl
    · intro id changed id' added equal
      obtain ⟨info, member, rfl⟩ := List.mem_map.mp changed
      obtain ⟨info', member', rfl⟩ := List.mem_map.mp added
      simp only [List.mem_filterMap, Prod.exists, mem_inOrder orders.old_perm, mem_inOrder orders.new_perm, change_iff,
        addition_iff] at member member'
      obtain ⟨key, oldCfg, known, pollCfg, -, -, rfl⟩ := member
      obtain ⟨key', pollCfg', -, unknown, rfl⟩ := member'
      rw [show key' = key from equal.symm, known] at unknown
      cases unknown

variable (old new) in
theorem diffConfigs_diff : Diff old new (diffConfigs orders old new).1 (diffConfigs orders old new).2 := by
  unfold diffConfigs
  dsimp only
  split_ifs with changed
  · exact diffConfigs_changed orders changed
  · push Not at changed
    exact diffConfigs_kept orders changed.1 changed.2

end Diff

namespace HttpPoller

/-- The live pollers are those of the polls that are wanted, one for each, and each dies by the channel
that is kept for its id. -/
structure Tracked (template : Client) (wanted : String → Option HTTPPollInfo) (this : HttpPoller) : Prop where
  known : ∀ poller ∈ this.live, ∃ info, wanted poller.id = some info ∧ poller = started template info poller.kill
  each : ∀ id info, wanted id = some info → ∃ poller ∈ this.live, poller.id = id
  chans : ∀ poller ∈ this.live, this.killChans.lookup poller.id = some poller.kill
  owner : ∀ id kill, this.killChans.lookup id = some kill → ∃ poller ∈ this.live, poller.id = id ∧ poller.kill = kill
  fresh : ∀ poller ∈ this.live, poller.kill < this.made
  distinct : (this.live.map fun poller => poller.kill).Nodup

section Steps

variable {template : Client} {wanted : String → Option HTTPPollInfo} {this : HttpPoller}

theorem Tracked.same (tracked : Tracked template wanted this) {first second : LivePoller} (member : first ∈ this.live)
    (member' : second ∈ this.live) (kill : first.kill = second.kill) : first = second :=
  List.inj_on_of_nodup_map tracked.distinct member member' kill

theorem tracked_new (interval : Int) : Tracked template (fun _ => none) (new interval) := by
  constructor <;> simp [new]

/-- Deleting an id ends the poller of that id and no other. -/
theorem mem_delete (tracked : Tracked template wanted this) (id : String) (poller : LivePoller) :
    poller ∈ (this.delete id).live ↔ poller ∈ this.live ∧ poller.id ≠ id := by
  unfold delete
  cases found : this.killChans.lookup id with
  | none =>
    refine ⟨fun member => ⟨member, ?_⟩, And.left⟩
    rintro rfl
    rw [tracked.chans poller member] at found
    cases found
  | some kill =>
    simp only [List.mem_filter, ne_eq, decide_not, Bool.not_eq_eq_eq_not, Bool.not_true, decide_eq_false_iff_not]
    refine and_congr_right fun member => not_congr ⟨fun dies => ?_, ?_⟩
    · obtain ⟨owner, inside, rfl, kills⟩ := tracked.owner id kill found
      rw [tracked.same member inside (dies.trans kills.symm)]
    · rintro rfl
      exact Option.some.inj ((tracked.chans poller member).symm.trans found)

theorem delete_chans (id other : String) :
    (this.delete id).killChans.lookup other = if other = id then none else this.killChans.lookup other := by
  unfold delete
  split_ifs with same
  · subst same
    cases found : this.killChans.lookup other with
    | none => exact found
    | some kill => exact AList.lookup_erase _ _
  · cases this.killChans.lookup id with
    | none => rfl
    | some kill => exact AList.lookup_erase_ne same

theorem delete_rest (id : String) : (this.delete id).made = this.made ∧ (this.delete id).live.Sublist this.live ∧
    (this.delete id).config = this.config := by
  unfold delete
  cases this.killChans.lookup id with
  | none => exact ⟨rfl, .refl _, rfl⟩
  | some kill => exact ⟨rfl, List.filter_sublist, rfl⟩

theorem delete_tracked (tracked : Tracked template wanted this) (id : String) :
    Tracked template (Function.update wanted id none) (this.delete id) := by
  have live := mem_delete tracked id
  constructor
  case known =>
    intro poller member
    obtain ⟨before, other⟩ := (live poller).mp member
    rw [Function.update_of_ne other]
    exact tracked.known poller before
  case each =>
    intro name info wants
    by_cases same : name = id
    · rw [same, Function.update_self] at wants
      cases wants
    · rw [Function.update_of_ne same] at wants
      obtain ⟨poller, member, rfl⟩ := tracked.each name info wants
      exact ⟨poller, (live poller).mpr ⟨member, same⟩, rfl⟩
  case chans =>
    intro poller member
    obtain ⟨before, other⟩ := (live poller).mp member
    rw [delete_chans, if_neg other]
    exact tracked.chans poller before
  case owner =>
    intro name kill found
    rw [delete_chans] at found
    split_ifs at found with same
    obtain ⟨poller, member, rfl, kills⟩ := tracked.owner name kill found
    exact ⟨poller, (live poller).mpr ⟨member, same⟩, rfl, kills⟩
  case fresh =>
    intro poller member
    rw [(delete_rest id).1]
    exact tracked.fresh poller ((live poller).mp member).1
  case distinct => exact tracked.distinct.sublist ((delete_rest id).2.1.map _)

theorem add_tracked (tracked : Tracked template wanted this) {info : HTTPPollInfo} (free : wanted info.id = none) :
    Tracked template (Function.update wanted info.id (some info)) (this.add template info) := by
  have apart : ∀ poller ∈ this.live, poller.id ≠ info.id := by
    intro poller member same
    obtain ⟨other, wants, -⟩ := tracked.known poller member
    rw [same, free] at wants
    cases wants
  have live : ∀ poller, poller ∈ (this.add template info).live ↔
      poller ∈ this.live ∨ poller = started template info this.made := by
    intro poller
    rw [add, List.mem_append, List.mem_singleton]
  constructor
  case known =>
    intro poller member
    obtain before | rfl := (live poller).mp member
    · rw [Function.update_of_ne (apart poller before)]
      exact tracked.known poller before
    · exact ⟨info, Function.update_self .., rfl⟩
  case each =>
    intro name other wants
    by_cases same : name = info.id
    · exact ⟨_, (live _).mpr (Or.inr rfl), same.symm⟩
    · rw [Function.update_of_ne same] at wants
      obtain ⟨poller, member, rfl⟩ := tracked.each name other wants
      exact ⟨poller, (live poller).mpr (Or.inl member), rfl⟩
  case chans =>
    intro poller member
    obtain before | rfl := (live poller).mp member
    · rw [add, AList.lookup_insert_ne (apart poller before)]
      exact tracked.chans poller before
    · exact AList.lookup_insert _
  case owner =>
    intro name kill found
    by_cases same : name = info.id
    · rw [same, add, AList.lookup_insert] at found
      exact ⟨_, (live _).mpr (Or.inr rfl), same.symm, Option.some.inj found⟩
    · rw [add, AList.lookup_insert_ne same] at found
      obtain ⟨poller, member, own⟩ := tracked.owner name kill found
      exact ⟨poller, (live poller).mpr (Or.inl member), own⟩
  case fresh =>
    intro poller member
    obtain before | rfl := (live poller).mp member
    · exact Nat.lt_succ_of_lt (tracked.fresh poller before)
    · exact Nat.lt_succ_self this.made
  case distinct =>
    rw [add, List.map_append, List.nodup_append]
    refine ⟨tracked.distinct, List.nodup_singleton _, fun kill member other last same => ?_⟩
    obtain ⟨poller, inside, rfl⟩ := List.mem_map.mp member
    obtain rfl := List.mem_singleton.mp last
    exact Nat.ne_of_lt (tracked.fresh poller inside) same

theorem deletes_tracked {deletions : List String} {left : String → Option HTTPPollInfo}
    (tracked : Tracked template wanted this)
    (gone : ∀ id ∈ deletions, left id = none) (kept : ∀ id, id ∉ deletions → left id = wanted id) :
    Tracked template left (deletions.foldl delete this) := by
  induction deletions generalizing this wanted with
  | nil =>
    have same : left = wanted := funext fun id => kept id List.not_mem_nil
    rwa [same]
  | cons id deletions ih =>
    refine ih (delete_tracked tracked id) (fun other member => gone other (List.mem_cons_of_mem _ member))
      fun other absent => ?_
    by_cases same : other = id
    · rw [same, Function.update_self]
      exact gone id List.mem_cons_self
    · rw [Function.update_of_ne same]
      exact kept other fun member => (List.mem_cons.mp member).elim same absent

theorem adds_tracked {additions : List HTTPPollInfo} {after : String → Option HTTPPollInfo}
    (tracked : Tracked template wanted this)
    (free : ∀ info ∈ additions, wanted info.id = none) (once : (additions.map fun info => info.id).Nodup)
    (own : ∀ info ∈ additions, after info.id = some info)
    (kept : ∀ id, (∀ info ∈ additions, info.id ≠ id) → after id = wanted id) :
    Tracked template after (additions.foldl (add template) this) := by
  induction additions generalizing this wanted with
  | nil =>
    have same : after = wanted := funext fun id => kept id (fun _ impossible => absurd impossible List.not_mem_nil)
    rwa [same]
  | cons info additions ih =>
    rw [List.map_cons, List.nodup_cons] at once
    have later : ∀ other ∈ additions, other.id ≠ info.id := fun other member same =>
      once.1 (List.mem_map.mpr ⟨other, member, same⟩)
    refine ih (add_tracked tracked (free info List.mem_cons_self)) (fun other member => ?_) once.2
      (fun other member => own other (List.mem_cons_of_mem _ member)) fun id absent => ?_
    · rw [Function.update_of_ne (later other member)]
      exact free other (List.mem_cons_of_mem _ member)
    · by_cases same : id = info.id
      · rw [same, Function.update_self]
        exact own info List.mem_cons_self
      · rw [Function.update_of_ne same]
        refine kept id fun other member => ?_
        obtain rfl | rest := List.mem_cons.mp member
        · exact Ne.symm same
        · exact absent other rest

/-- After a config the polls that it wants are those that live. -/
theorem configure_tracked (orders : DiffOrders) (tracked : Tracked template this.config.wanted this)
    (newConfig : HttpPollerConfig) :
    Tracked template newConfig.wanted (this.configure template orders newConfig) := by
  have diff := diffConfigs_diff orders this.config newConfig
  let left (id : String) : Option HTTPPollInfo :=
    if id ∈ (diffConfigs orders this.config newConfig).1 then none else this.config.wanted id
  have deleted : Tracked template left ((diffConfigs orders this.config newConfig).1.foldl delete this) :=
    deletes_tracked tracked (fun id member => if_pos member) fun id absent => if_neg absent
  have added : Tracked template newConfig.wanted
      ((diffConfigs orders this.config newConfig).2.foldl (add template)
        ((diffConfigs orders this.config newConfig).1.foldl delete this)) := by
    refine adds_tracked deleted (fun info member => ?_) diff.once
      (fun info member => ((diff.added info).mp member).1) fun id absent => ?_
    · obtain ⟨wants, differs⟩ := (diff.added info).mp member
      cases known : this.config.wanted info.id with
      | none => simp [left, known]
      | some other =>
        refine if_pos ((diff.deleted info.id).mpr ⟨by rw [known]; rfl, fun kept => differs ?_⟩)
        rw [← kept, wants]
    · by_cases kept : newConfig.wanted id = this.config.wanted id
      · rw [kept]
        exact (if_neg fun member => ((diff.deleted id).mp member).2 kept).symm
      · cases wants : newConfig.wanted id with
        | none =>
          refine (if_pos ((diff.deleted id).mpr ⟨?_, kept⟩)).symm
          rw [wants] at kept
          exact Option.isSome_iff_ne_none.mpr (Ne.symm kept)
        | some info =>
          obtain rfl := (wanted_id wants).1
          exact absurd rfl (absent info ((diff.added info).mpr ⟨wants, fun same => kept (wants.trans same.symm)⟩))
  exact ⟨added.known, added.each, added.chans, added.owner, added.fresh, added.distinct⟩

end Steps

end HttpPoller

/-- The pollers that live are one for each url of the latest config, polling as that config says. A poll
without a timeout has that of the template. -/
structure Reconciled (template : Client) (this : HttpPoller) : Prop where
  known : ∀ poller ∈ this.live, ∃ pollCfg, this.config.urls.lookup poller.id = some pollCfg ∧
    poller.url = pollCfg.url ∧ poller.host = pollCfg.host ∧ poller.format = pollCfg.format ∧
    poller.interval = this.config.interval ∧
    poller.client.timeout = if pollCfg.timeout = 0 then template.timeout else pollCfg.timeout
  each : ∀ id ∈ this.config.urls, ∃ poller ∈ this.live, poller.id = id
  once : (this.live.map fun poller => poller.id).Nodup

section Sharing

variable {template : Client}

theorem of_timeout (info : HTTPPollInfo) :
    (template.of info).timeout = if info.timeout = 0 then template.timeout else info.timeout := by
  unfold Client.of
  by_cases zero : info.timeout = 0
  · cases info.noKeepAlive <;> simp [zero]
  · simp [zero]

theorem of_transport (info : HTTPPollInfo) :
    (template.of info).transport = if info.noKeepAlive = true then .default else template.transport := by
  unfold Client.of
  cases info.noKeepAlive with
  | true => simp
  | false => by_cases zero : info.timeout = 0 <;> simp [zero]

theorem HttpPoller.Tracked.reconciled {this : HttpPoller} (tracked : Tracked template this.config.wanted this) :
    Reconciled template this := by
  constructor
  case known =>
    intro poller member
    obtain ⟨info, wanted, same⟩ := tracked.known poller member
    obtain ⟨pollCfg, found, rfl⟩ := Option.map_eq_some_iff.mp wanted
    refine ⟨pollCfg, found, ?_⟩
    rw [same]
    exact ⟨rfl, rfl, rfl, rfl, of_timeout _⟩
  case each =>
    intro id member
    obtain ⟨pollCfg, found⟩ := Option.isSome_iff_exists.mp (AList.lookup_isSome.mpr member)
    exact tracked.each id _ (congrArg (Option.map (this.config.info id)) found)
  case once =>
    refine (List.nodup_map_iff_inj_on (List.Nodup.of_map _ tracked.distinct)).mpr fun first member second member' same => ?_
    refine tracked.same member member' (Option.some.inj ?_)
    rw [← tracked.chans first member, ← tracked.chans second member', same]

/-- The settings of a live poller are those of the config, and where the config turned keep-alives off they
are off in the shared transport. -/
structure Shared (template : Client) (this : System) : Prop where
  tracked : ∀ kind, HttpPoller.Tracked template (this.pollers kind).config.wanted (this.pollers kind)
  off : ∀ kind, ∀ poller ∈ (this.pollers kind).live,
    (this.pollers kind).config.noKeepAlive = true → this.disableKeepAlives = true

theorem shared_new (interval : Kind → Int) : Shared template (System.new interval) :=
  ⟨fun kind => HttpPoller.tracked_new (interval kind), fun _ _ impossible => absurd impossible List.not_mem_nil⟩

theorem send_own (this : System) (sent : Sent) : (this.send template sent).pollers sent.kind =
    (this.pollers sent.kind).configure template sent.orders sent.newConfig :=
  Function.update_self ..

theorem send_other {this : System} {sent : Sent} {kind : Kind} (other : kind ≠ sent.kind) :
    (this.send template sent).pollers kind = this.pollers kind :=
  Function.update_of_ne other ..

theorem send_shared {this : System} (shared : Shared template this) (sent : Sent) :
    Shared template (this.send template sent) := by
  have diff := diffConfigs_diff sent.orders (this.pollers sent.kind).config sent.newConfig
  have tracked := HttpPoller.configure_tracked sent.orders (shared.tracked sent.kind) sent.newConfig
  have kept : this.disableKeepAlives = true → (this.send template sent).disableKeepAlives = true := by
    intro off
    rw [System.send, off, Bool.true_or]
  rw [← send_own] at tracked
  constructor
  case tracked =>
    intro kind
    by_cases same : kind = sent.kind
    · subst same
      rw [send_own]
      exact HttpPoller.configure_tracked sent.orders (shared.tracked sent.kind) sent.newConfig
    · rw [send_other same]
      exact shared.tracked kind
  case off =>
    intro kind poller member noKeepAlive
    by_cases same : kind = sent.kind
    · subst same
      rw [send_own] at noKeepAlive
      obtain ⟨info, wanted, -⟩ := tracked.known poller member
      obtain ⟨own, keepAlive⟩ := wanted_id wanted
      -- Its poll is one of the additions, or was there before with the same settings.
      by_cases before : (this.pollers sent.kind).config.wanted poller.id = some info
      · obtain ⟨old, inside, -⟩ := (shared.tracked sent.kind).each _ _ before
        exact kept (shared.off sent.kind old inside ((wanted_id before).2.symm.trans (keepAlive.trans noKeepAlive)))
      · have added : info ∈ (diffConfigs sent.orders (this.pollers sent.kind).config sent.newConfig).2 :=
          (diff.added info).mpr (own ▸ ⟨wanted, before⟩)
        rw [System.send, List.any_eq_true.mpr ⟨info, added, keepAlive.trans noKeepAlive⟩, Bool.or_true]
    · rw [send_other same] at member noKeepAlive
      exact kept (shared.off kind poller member noKeepAlive)

theorem Shared.transport {this : System} (shared : Shared template this) {kind : Kind} {poller : LivePoller}
    (member : poller ∈ (this.pollers kind).live) : poller.client.transport =
      if (this.pollers kind).config.noKeepAlive = true then .default else template.transport := by
  obtain ⟨info, wanted, same⟩ := (shared.tracked kind).known poller member
  rw [same, ← (wanted_id wanted).2]
  exact of_transport info

def KeepAlives (this : System) : Prop :=
  ∀ kind, ∀ poller ∈ (this.pollers kind).live,
    (this.keepAlivesDisabled poller = true ↔ (this.pollers kind).config.noKeepAlive = true)

/-- With a transport of its own the template leaves the shared one to the pollers without keep-alives. -/
theorem Shared.keepAlives {this : System} (shared : Shared template this) (own : template.transport = .own) :
    KeepAlives this := by
  intro kind poller member
  have transport := shared.transport member
  rw [own] at transport
  unfold System.keepAlivesDisabled
  cases setting : (this.pollers kind).config.noKeepAlive with
  | false => simp [transport, setting]
  | true => simp [transport, setting, shared.off kind poller member setting]

-- Some poll is wanted.
def HttpPollerConfig.Polls (this : HttpPollerConfig) : Prop := ∃ id, (this.wanted id).isSome

/-- With the shared transport as that of the template, all of the live pollers must want the same. -/
theorem Shared.keepAlives_iff {this : System} (shared : Shared template this) (default : template.transport = .default) :
    KeepAlives this ↔ ∀ kind, (this.pollers kind).config.Polls →
      (this.disableKeepAlives = true ↔ (this.pollers kind).config.noKeepAlive = true) := by
  have all : ∀ {kind} {poller : LivePoller}, poller ∈ (this.pollers kind).live →
      this.keepAlivesDisabled poller = this.disableKeepAlives := by
    intro kind poller member
    have transport := shared.transport member
    rw [default, ite_self] at transport
    rw [System.keepAlivesDisabled, transport]
  constructor
  · rintro agree kind ⟨id, polled⟩
    obtain ⟨info, wanted⟩ := Option.isSome_iff_exists.mp polled
    obtain ⟨poller, member, -⟩ := (shared.tracked kind).each id info wanted
    rw [← all member]
    exact agree kind poller member
  · intro agree kind poller member
    obtain ⟨info, wanted, -⟩ := (shared.tracked kind).known poller member
    rw [all member]
    exact agree kind ⟨poller.id, by rw [wanted]; rfl⟩

/-- A config that starts polls goes with the ones of the other pollers and with what was started before. -/
structure Compatible (this : System) (sent : Sent) : Prop where
  off : sent.newConfig.noKeepAlive = true → sent.newConfig.Polls →
    ∀ kind, kind ≠ sent.kind → (this.pollers kind).config.Polls → (this.pollers kind).config.noKeepAlive = true
  on : sent.newConfig.noKeepAlive = false → sent.newConfig.Polls → this.disableKeepAlives = false

theorem send_disableKeepAlives (this : System) (sent : Sent) : (this.send template sent).disableKeepAlives = true ↔
    this.disableKeepAlives = true ∨ sent.newConfig.noKeepAlive = true ∧
      ∃ id info, sent.newConfig.wanted id = some info ∧ (this.pollers sent.kind).config.wanted id ≠ some info := by
  have diff := diffConfigs_diff sent.orders (this.pollers sent.kind).config sent.newConfig
  rw [System.send, Bool.or_eq_true, List.any_eq_true]
  refine or_congr_right ⟨?_, ?_⟩
  · rintro ⟨info, member, off⟩
    obtain ⟨wanted, differs⟩ := (diff.added info).mp member
    exact ⟨(wanted_id wanted).2.symm.trans off, info.id, info, wanted, differs⟩
  · rintro ⟨off, id, info, wanted, differs⟩
    obtain ⟨rfl, keepAlive⟩ := wanted_id wanted
    exact ⟨info, (diff.added info).mpr ⟨wanted, differs⟩, keepAlive.trans off⟩

theorem keepAlives_send_iff {this : System} (shared : Shared template this) (default : template.transport = .default)
    (agree : KeepAlives this) (sent : Sent) : KeepAlives (this.send template sent) ↔ Compatible this sent := by
  rw [(send_shared shared sent).keepAlives_iff default]
  rw [shared.keepAlives_iff default] at agree
  have flag : (this.send template sent).disableKeepAlives = true ↔ _ := send_disableKeepAlives this sent
  have own : ((this.send template sent).pollers sent.kind).config = sent.newConfig := by
    rw [send_own]
    rfl
  constructor
  · intro after
    constructor
    case off =>
      intro noKeepAlive polls kind other polled
      have here := after sent.kind (own ▸ polls)
      rw [own] at here
      have there := after kind (by rwa [send_other other])
      rw [send_other other] at there
      exact there.mp (here.mpr noKeepAlive)
    case on =>
      intro keepAlive polls
      have here := after sent.kind (own ▸ polls)
      rw [own, keepAlive] at here
      rw [Bool.eq_false_iff]
      exact fun before => Bool.false_ne_true (here.mp (flag.mpr (Or.inl before)))
  · intro compatible kind polled
    by_cases same : kind = sent.kind
    · subst same
      rw [own] at polled ⊢
      cases setting : sent.newConfig.noKeepAlive with
      | false =>
        rw [flag, setting, compatible.on setting polled]
        simp
      | true =>
        refine iff_of_true (flag.mpr ?_) rfl
        obtain ⟨id, polls⟩ := polled
        obtain ⟨info, wanted⟩ := Option.isSome_iff_exists.mp polls
        by_cases before : (this.pollers sent.kind).config.wanted id = some info
        · refine Or.inl ((agree sent.kind ⟨id, by rw [before]; rfl⟩).mpr ?_)
          exact (wanted_id before).2.symm.trans ((wanted_id wanted).2.trans setting)
        · exact Or.inr ⟨setting, id, info, wanted, before⟩
    · rw [send_other same] at polled ⊢
      rw [flag]
      constructor
      · rintro (before | ⟨noKeepAlive, id, info, wanted, -⟩)
        · exact (agree kind polled).mp before
        · exact compatible.off noKeepAlive ⟨id, by rw [wanted]; rfl⟩ kind same polled
      · exact fun setting => Or.inl ((agree kind polled).mpr setting)

end Sharing

def step (template : Client) (this : System) (sent : Sent) : Option System := some (this.send template sent)

theorem step_shared {template : Client} (this : System) (sent : Sent) (next : System) (shared : Shared template this)
    (stepped : step template this sent = some next) : Shared template next := by
  obtain rfl := Option.some.inj stepped
  exact send_shared shared sent

section Edge

theorem listed_keys (keys : List String) : keys.Perm keys := .refl _

def inKeyOrder : DiffOrders := ⟨fun keys => keys, fun keys => keys, listed_keys, listed_keys⟩

def poll (id : String) (noKeepAlive : Bool) : HttpPollerConfig :=
  ⟨(∅ : AList fun _ : String => PollConfig).insert id ⟨"http://" ++ id ++ "/", id, 0, "astats"⟩, 6000000000, noKeepAlive⟩

def sharedTemplate : Client := ⟨10000000000, .default⟩

-- A poll of a cache without keep-alives, and then one of a peer with them.
def mixed : List Sent := [⟨.health, poll "edge1" true, inKeyOrder⟩, ⟨.peer, poll "monitor2" false, inKeyOrder⟩]

example : (run (step sharedTemplate) (System.new fun _ => 0) mixed).map (fun this => (this.pollers .peer).live.map (·.id)) =
    some ["monitor2"] := by decide

def monitor2 : LivePoller where
  id := "monitor2"
  url := "http://monitor2/"
  host := "monitor2"
  format := "astats"
  interval := 6000000000
  client := sharedTemplate
  kill := 0

end Edge

end TrafficControl.TrafficMonitor.Polling
