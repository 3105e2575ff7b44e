import TrafficControl.TrafficRouter.Config.ProcessingSteps

set_option autoImplicit false

namespace TrafficControl.TrafficRouter.ConfigHandler

open Runs

inductive Flag where
  | isProcessing
  | cancelled
  | publishStatusQueue

def Flag.clearing : Flag → Statement
  | isProcessing => .setIsProcessing false
  | cancelled => .setCancelled false
  | publishStatusQueue => .clearPublishStatusQueue

def Awaits (statement : Statement) (remaining : List Statement) : Prop :=
  statement ∈ remaining ∨ ∃ jsonStr, .readSnapshot jsonStr ∈ remaining

theorem Clears.awaits {rest : List Statement} (clears : Clears rest) (flag : Flag) : Awaits flag.clearing rest := by
  rcases clears with ⟨exit, suffix⟩ | reads
  · have member : flag.clearing ∈ exitStatements exit := by
      cases flag <;> cases exit <;> simp [exitStatements, Flag.clearing]
    exact Or.inl (suffix.subset member)
  · exact Or.inr reads

theorem Awaits.tail {statement head : Statement} {rest : List Statement} (awaits : Awaits statement (head :: rest))
    (other : head ≠ statement) (unread : ∀ jsonStr, head ≠ .readSnapshot jsonStr) : Awaits statement rest := by
  rcases awaits with here | ⟨jsonStr, reads⟩
  · exact Or.inl ((List.mem_cons.mp here).resolve_left (Ne.symm other))
  · exact Or.inr ⟨jsonStr, (List.mem_cons.mp reads).resolve_left (Ne.symm (unread jsonStr))⟩

namespace Handler

variable {java : Java} {this next : Handler}

def flag (this : Handler) : Flag → Bool
  | .isProcessing => this.isProcessing
  | .cancelled => this.cancelled
  | .publishStatusQueue => this.publishStatusQueue

/-- When no call is under way, no flag is set. -/
def Released (this : Handler) : Prop := this.call = none → ∀ flag, this.flag flag = false

def Pending (this : Handler) (statement : Statement) : Prop :=
  ∃ call, this.call = some call ∧ Awaits statement call.remaining

def Covered (this : Handler) : Prop := ∀ flag, this.flag flag = true → this.Pending flag.clearing

/-- Nothing but a ParseException is thrown, and a cancellation comes before the call has cleared
`cancelled`. -/
def Orderly (java : Java) (this : Handler) : Event → Prop
  | .advance => ∀ call statement rest, this.call = some call → call.remaining = statement :: rest →
      ¬statement.Throws java call.clock
  | .fails _ => False
  | .setCancelled => this.Pending (.setCancelled false)
  | _ => True

theorem Covered.released (covered : this.Covered) : this.Released := by
  intro idle flag
  by_contra set
  obtain ⟨call, called, _⟩ := covered flag (Bool.not_eq_false _ ▸ set)
  simp [idle] at called

theorem execute_flag {call : Call} {rest : List Statement} {statement : Statement} {flag : Flag}
    (executed : this.execute java call rest statement = some next) (set : next.flag flag = true) :
    statement ≠ flag.clearing ∧ (this.flag flag = true ∨ statement.exits = false) := by
  have other : statement.exits = false → statement ≠ flag.clearing := by
    rintro inside rfl
    cases flag <;> simp [Flag.clearing, Statement.exits] at inside
  cases execute_executed executed with
  | setsIsProcessing value =>
    cases value with
    | true => exact ⟨other rfl, Or.inr rfl⟩
    | false =>
      cases flag with
      | isProcessing => cases set
      | cancelled => exact ⟨by simp [Flag.clearing], Or.inl set⟩
      | publishStatusQueue => exact ⟨by simp [Flag.clearing], Or.inl set⟩
  | setsCancelled value =>
    cases value with
    | true => exact ⟨other rfl, Or.inr rfl⟩
    | false =>
      cases flag with
      | isProcessing => exact ⟨by simp [Flag.clearing], Or.inl set⟩
      | cancelled => cases set
      | publishStatusQueue => exact ⟨by simp [Flag.clearing], Or.inl set⟩
  | clears =>
    cases flag with
    | isProcessing => exact ⟨by simp [Flag.clearing], Or.inl set⟩
    | cancelled => exact ⟨by simp [Flag.clearing], Or.inl set⟩
    | publishStatusQueue => cases set
  | exits exit => exact ⟨by cases flag <;> simp [Flag.clearing], Or.inl (by cases flag <;> exact set)⟩
  | _ => exact ⟨other rfl, Or.inr rfl⟩

theorem Covered.step {event : Event} (covered : this.Covered) (positioned : this.Positioned java)
    (orderly : this.Orderly java event) (steps : this.step java event = some next) : next.Covered := by
  intro flag set
  cases stepped steps with
  | begins jsonStr clock idle =>
    have clear := covered.released idle flag
    have same : (this.goOn ⟨clock, []⟩ (entryStatements jsonStr)).flag flag = this.flag flag := by cases flag <;> rfl
    simp [same, clear] at set
  | executes call statement rest next called remaining executed =>
    obtain ⟨program, isProgram, suffix⟩ := positioned call called
    rw [remaining] at suffix
    obtain ⟨other, before⟩ := execute_flag executed set
    have waited : this.flag flag = true → Awaits flag.clearing (statement :: rest) := by
      intro setBefore
      obtain ⟨_, sameCall, awaits⟩ := covered flag setBefore
      obtain rfl := Option.some.inj (called.symm.trans sameCall)
      exact remaining ▸ awaits
    rcases (execute_executed executed).call with ⟨_, throws | ⟨exit, rfl⟩⟩ | ⟨passed, unread⟩ | ⟨program', _, clears, turned⟩
    · exact absurd throws (orderly call statement rest called remaining)
    · -- the last statement of a call leaves nothing to clear
      obtain rfl := isProgram.exit_last suffix
      have awaits := waited (before.resolve_right (by simp [Statement.exits]))
      cases flag <;> simp [Awaits, Flag.clearing] at awaits
    · refine ⟨_, passed, ?_⟩
      rcases before with setBefore | inside
      · exact (waited setBefore).tail other unread
      · exact (isProgram.clears suffix inside unread).awaits flag
    · exact ⟨_, turned, clears.awaits flag⟩
  | fails e clock snapshot u rest called calls other => exact absurd orderly id
  | interrupted clock rest called =>
    obtain ⟨program, isProgram, suffix⟩ := positioned _ called
    exact ⟨_, rfl, (isProgram.clears suffix rfl (by simp)).awaits flag⟩
  | other event next keeps cancelled =>
    have pending : this.Pending flag.clearing := by
      cases flag with
      | isProcessing => exact covered .isProcessing (keeps.isProcessing.symm.trans set)
      | publishStatusQueue => exact covered .publishStatusQueue (keeps.publishStatusQueue set)
      | cancelled =>
        rcases cancelled with rfl | same
        · exact orderly
        · exact covered .cancelled (same.symm.trans set)
    obtain ⟨call, called, awaits⟩ := pending
    exact ⟨call, keeps.call.trans called, awaits⟩

structure Accounted (java : Java) (this : Handler) : Prop where
  positioned : this.Positioned java
  covered : this.Covered

theorem Accounted.step {event : Event} (accounted : this.Accounted java) (orderly : this.Orderly java event)
    (steps : this.step java event = some next) : next.Accounted java :=
  ⟨accounted.positioned.step steps, accounted.covered.step accounted.positioned orderly steps⟩

theorem flags_released {events : List Event} {last : Handler} (idle : this.call = none)
    (clear : ∀ flag, this.flag flag = false) (orderly : Throughout (step java) (Orderly java) this events)
    (ran : run (step java) this events = some last) : last.Released := by
  have start : this.Accounted java :=
    ⟨fun call called => by simp [idle] at called, fun flag set => by simp [clear flag] at set⟩
  exact (run_invariant (fun _ _ _ => Accounted.step) start orderly ran).covered.released

-- A call without data, cancelled at once.
def cancelledEvents : List Event :=
  [.processConfig none stoppedClock, .advance, .isProcessing, .setCancelled, .advance, .advance, .advance, .advance]

theorem cancelledEvents_orderly :
    Throughout (step (javaReading [])) (Orderly (javaReading [])) new cancelledEvents := by
  have exits : ∀ (handler : Handler) (call : Call) (statement : Statement) (rest : List Statement),
      handler.call = some call → call.remaining = statement :: rest → statement ∈ entryStatements none →
        handler.Orderly (javaReading []) .advance := by
    intro handler call statement rest called remaining member call' statement' rest' called' remaining' throws
    obtain rfl := Option.some.inj (called.symm.trans called')
    obtain ⟨rfl, -⟩ := List.cons_eq_cons.mp (remaining.symm.trans remaining')
    simp only [entryStatements, exitStatements, List.mem_cons, List.not_mem_nil, or_false] at member
    rcases member with rfl | rfl | rfl | rfl | rfl <;> exact throws
  refine ⟨trivial, ?_⟩
  rintro _ ⟨⟩
  refine ⟨exits _ _ _ _ rfl rfl (by simp [entryStatements]), ?_⟩
  rintro _ ⟨⟩
  refine ⟨trivial, ?_⟩
  rintro _ ⟨⟩
  refine ⟨⟨_, rfl, Or.inl (by simp [exitStatements])⟩, ?_⟩
  rintro _ ⟨⟩
  refine ⟨exits _ _ _ _ rfl rfl (by simp [entryStatements, exitStatements]), ?_⟩
  rintro _ ⟨⟩
  refine ⟨exits _ _ _ _ rfl rfl (by simp [entryStatements, exitStatements]), ?_⟩
  rintro _ ⟨⟩
  refine ⟨exits _ _ _ _ rfl rfl (by simp [entryStatements, exitStatements]), ?_⟩
  rintro _ ⟨⟩
  exact ⟨exits _ _ _ _ rfl rfl (by simp [entryStatements, exitStatements]), fun _ _ => trivial⟩

theorem flags_released_cancelled :
    ∃ last, run (step (javaReading [])) new cancelledEvents = some last ∧ last.Released := by
  obtain ⟨last, ran⟩ : ∃ last, run (step (javaReading [])) new cancelledEvents = some last := ⟨_, rfl⟩
  exact ⟨last, ran, flags_released rfl (fun flag => by cases flag <;> rfl) cancelledEvents_orderly ran⟩

theorem flags_left_set :
    (∃ last, run (step (javaReading [("{}", .object [])])) new
      [.processConfig (some "{}") stoppedClock, .advance, .advance] = some last ∧
        last.ended = some (.threw (.configException (JsonUtils.throwException "config"))) ∧ ¬last.Released) ∧
    ∃ last, run (step (javaReading [])) new [.processConfig none stoppedClock, .advance, .isProcessing, .advance,
      .setCancelled, .advance, .advance, .advance] = some last ∧ last.ended = some (.returned .noData) ∧
        ¬last.Released := by
  refine ⟨⟨_, rfl, rfl, fun released => ?_⟩, ⟨_, rfl, rfl, fun released => ?_⟩⟩
  · cases released rfl .isProcessing
  · cases released rfl .cancelled

end Handler

end TrafficControl.TrafficRouter.ConfigHandler
