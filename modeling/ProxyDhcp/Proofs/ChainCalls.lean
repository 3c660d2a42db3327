/-
The calls that a run of a chain makes. A handler is called with what the one before it made of the reply, and the first
that stops the chain is the last one called (`Chain.areCalls_iff`). The run leaves what its last call made, with the
events of its calls (`Chain.run_eq`). A chain behind another one runs on the reply that this one leaves, unless one of
its calls stops it (`Chain.run_append`).
-/
import ProxyDhcp.Chain

namespace ProxyDhcp.Chain

/-! ## Calls -/

/-- A handler, and the reply that it is called with. -/
structure Call where
  handler : Handler
  given : Message

namespace Call

variable (request : Message) (call : Call)

/-- What the handler makes of the reply. -/
def made : Message := (call.handler.handle request call.given).value.1

/-- Whether the handler lets the chain go on. -/
def flow : Flow := (call.handler.handle request call.given).value.2

/-- What the handler reports, and that it stops the chain if it does. -/
def events : List Event :=
  (call.handler.handle request call.given).events ++
    if call.flow request = .stop then [.chainStopped call.handler.name] else []

end Call

/-- The calls of a run, in their order. -/
def calls : Chain → Message → Message → List Call
  | [], _, _ => []
  | handler :: rest, request, reply =>
    ⟨handler, reply⟩ ::
      if Call.flow request ⟨handler, reply⟩ = .stop then []
      else calls rest request (Call.made request ⟨handler, reply⟩)

/-- A handler that is called in the run stops the chain. -/
def Stops (chain : Chain) (request reply : Message) : Prop :=
  ∃ call ∈ calls chain request reply, call.flow request = .stop

instance (chain : Chain) (request reply : Message) : Decidable (Stops chain request reply) :=
  inferInstanceAs (Decidable (∃ call ∈ calls chain request reply, call.flow request = .stop))

/-- What the calls of a run have to be. -/
structure AreCalls (chain : Chain) (request reply : Message) (row : List Call) : Prop where
  /-- The handlers called are the first of the chain, each of them once and in its place. -/
  inOrder : row.map Call.handler <+: chain
  /-- The first is given the reply, and each other one what its predecessor made. -/
  linked : row.map Call.given = (reply :: row.map (Call.made request)).dropLast
  /-- Behind a handler that stops the chain none is called. -/
  proceeds : ∀ call ∈ row.dropLast, call.flow request = .proceed
  /-- The chain is called to its end, or up to a handler that stops it. -/
  ends : row.map Call.handler = chain ∨ ∃ call, row.getLast? = some call ∧ call.flow request = .stop

variable {chain : Chain} {request reply : Message} {handler : Handler}

theorem Call.value_handle (handler : Handler) (request reply : Message) :
    (handler.handle request reply).value =
      (Call.made request ⟨handler, reply⟩, Call.flow request ⟨handler, reply⟩) := rfl

theorem Call.flow_ne_stop {call : Call} : ¬ call.flow request = .stop ↔ call.flow request = .proceed := by
  cases call.flow request <;> simp

theorem stops_cons :
    Stops (handler :: chain) request reply ↔
      Call.flow request ⟨handler, reply⟩ = .stop ∨ Stops chain request (Call.made request ⟨handler, reply⟩) := by
  rw [Stops, Stops, calls]
  by_cases hstop : Call.flow request ⟨handler, reply⟩ = .stop <;> simp [hstop]

theorem areCalls_nil_iff {row : List Call} : AreCalls [] request reply row ↔ row = [] := by
  constructor
  · intro h
    exact List.map_eq_nil_iff.1 (List.prefix_nil.1 h.inOrder)
  · rintro rfl
    exact ⟨List.prefix_rfl, rfl, by simp, .inl rfl⟩

theorem forall_mem_dropLast_cons {p : Call → Prop} {first : Call} {more : List Call} :
    (∀ call ∈ (first :: more).dropLast, p call) ↔ more = [] ∨ (p first ∧ ∀ call ∈ more.dropLast, p call) := by
  cases more with
  | nil => simp
  | cons second more => rw [List.dropLast_cons_cons, List.forall_mem_cons]; simp

theorem exists_getLast?_cons {p : Call → Prop} {first : Call} {more : List Call} :
    (∃ call, (first :: more).getLast? = some call ∧ p call) ↔
      (more = [] ∧ p first) ∨ ∃ call, more.getLast? = some call ∧ p call := by
  cases more with
  | nil => simp
  | cons second more => simp [List.getLast?_cons_cons]

/-- **The calls of a chain, from its first one**: it is given the reply, and if it lets the chain go on, then the
others are the calls of the other handlers with what it made. -/
theorem areCalls_cons_iff {row : List Call} :
    AreCalls (handler :: chain) request reply row ↔
      ∃ more, row = ⟨handler, reply⟩ :: more ∧
        if Call.flow request ⟨handler, reply⟩ = .stop then more = []
        else AreCalls chain request (Call.made request ⟨handler, reply⟩) more := by
  constructor
  · intro ⟨hinOrder, hlinked, hproceeds, hends⟩
    cases row with
    -- No call at all would be a chain called to its end, or have a last call that stops it.
    | nil => rcases hends with h | ⟨call, h, -⟩ <;> cases h
    | cons call more =>
      obtain ⟨called, given⟩ := call
      obtain ⟨rfl, hrest⟩ := List.cons_prefix_cons.1 hinOrder
      rw [List.map_cons, List.map_cons, List.dropLast_cons_cons, List.cons.injEq] at hlinked
      obtain ⟨rfl, hlinked⟩ := hlinked
      rw [forall_mem_dropLast_cons] at hproceeds
      rw [exists_getLast?_cons] at hends
      refine ⟨more, rfl, ?_⟩
      split
      · next hstop => exact hproceeds.resolve_right fun ⟨hproceed, _⟩ => Call.flow_ne_stop.2 hproceed hstop
      · next hnot =>
        refine ⟨hrest, hlinked, ?_, ?_⟩
        · rcases hproceeds with rfl | ⟨-, hproceeds⟩
          · exact nofun
          · exact hproceeds
        · rcases hends with hall | ⟨-, hstop⟩ | hlast
          · exact .inl (List.cons.inj hall).2
          · exact absurd hstop hnot
          · exact .inr hlast
  · rintro ⟨more, rfl, hmore⟩
    split at hmore
    · next hstop =>
      subst hmore
      exact ⟨List.cons_prefix_cons.2 ⟨rfl, List.nil_prefix⟩, rfl, nofun, .inr ⟨_, rfl, hstop⟩⟩
    · next hnot =>
      obtain ⟨hrest, hlinked, hproceeds, hends⟩ := hmore
      refine ⟨List.cons_prefix_cons.2 ⟨rfl, hrest⟩, ?_, ?_, ?_⟩
      · rw [List.map_cons, List.map_cons, List.dropLast_cons_cons, hlinked]
      · exact forall_mem_dropLast_cons.2 (.inr ⟨Call.flow_ne_stop.1 hnot, hproceeds⟩)
      · exact hends.imp (congrArg (handler :: ·)) fun hlast => exists_getLast?_cons.2 (.inr hlast)

/-- **A run makes the calls that it has to make**, and there is one such row alone. -/
theorem areCalls_iff {row : List Call} : AreCalls chain request reply row ↔ row = calls chain request reply := by
  induction chain generalizing reply row with
  | nil => exact areCalls_nil_iff
  | cons handler chain ih =>
    rw [areCalls_cons_iff, calls]
    split
    · simp
    · simp [ih]

/-! ## Runs -/

/-- What a call leaves, with its events. -/
def Call.step (request : Message) (call : Call) : Logged Message := ⟨call.made request, call.events request⟩

theorem Call.step_bind (request : Message) (call : Call) (next : Message → Logged Message) :
    call.step request >>= next =
      ⟨(next (call.made request)).value, call.events request ++ (next (call.made request)).events⟩ := rfl

theorem run_cons (handler : Handler) (chain : Chain) (request reply : Message) :
    run (handler :: chain) request reply =
      if Call.flow request ⟨handler, reply⟩ = .stop then Call.step request ⟨handler, reply⟩
      else Call.step request ⟨handler, reply⟩ >>= run chain request := by
  refine Logged.ext ?_ ?_
  · simp only [run, Logged.value_bind, Call.value_handle]
    cases Call.flow request ⟨handler, reply⟩ <;> rfl
  · simp only [run, Logged.events_bind, Call.value_handle, Call.step, Call.events]
    cases Call.flow request ⟨handler, reply⟩ <;> simp

/-- **A run leaves what its last call made**, or the reply that it was given if nothing was called, and its events are
those of its calls. -/
theorem run_eq (chain : Chain) (request reply : Message) :
    run chain request reply =
      ⟨((calls chain request reply).map (Call.made request)).getLastD reply,
        (calls chain request reply).flatMap (Call.events request)⟩ := by
  induction chain generalizing reply with
  | nil => rfl
  | cons handler chain ih =>
    rw [run_cons, calls, List.map_cons, List.getLastD_cons, List.flatMap_cons]
    by_cases hstop : Call.flow request ⟨handler, reply⟩ = .stop
    · rw [if_pos hstop, if_pos hstop, List.flatMap_nil, List.append_nil]
      rfl
    · rw [if_neg hstop, if_neg hstop, Call.step_bind, ih]

/-- The calls of a chain and of another one behind it. -/
theorem calls_append (front back : Chain) (request reply : Message) :
    calls (front ++ back) request reply =
      if Stops front request reply then calls front request reply
      else calls front request reply ++ calls back request (run front request reply).value := by
  induction front generalizing reply with
  | nil => rfl
  | cons handler front ih =>
    rw [List.cons_append, calls, calls, run_cons]
    by_cases hstop : Call.flow request ⟨handler, reply⟩ = .stop
    · rw [if_pos hstop, if_pos hstop, if_pos (stops_cons.2 (.inl hstop))]
    · rw [if_neg hstop, if_neg hstop, if_neg hstop, ih, Call.step_bind]
      by_cases hfront : Stops front request (Call.made request ⟨handler, reply⟩)
      · rw [if_pos hfront, if_pos (stops_cons.2 (.inr hfront))]
      · rw [if_neg hfront, if_neg fun h => (stops_cons.1 h).elim hstop hfront, List.cons_append]

/-- **A chain behind another one** runs on the reply that this one leaves, unless a call of this one stops it. -/
theorem run_append (front back : Chain) (request reply : Message) :
    run (front ++ back) request reply =
      if Stops front request reply then run front request reply
      else run front request reply >>= run back request := by
  -- A run is what its calls are, so it is enough to append the calls.
  rw [run_eq (front ++ back), calls_append]
  split
  · rw [run_eq front]
  · refine Logged.ext ?_ ?_
    · rw [Logged.value_bind, run_eq back, List.map_append, List.getLastD_eq_getLast?, List.getLast?_append,
        Option.getD_or, ← List.getLastD_eq_getLast?, ← List.getLastD_eq_getLast?, run_eq front]
    · rw [Logged.events_bind, run_eq back, run_eq front, List.flatMap_append]

/-- The handlers reached are those that are called. -/
theorem reached_eq_map (chain : Chain) (request reply : Message) :
    reached chain request reply = (calls chain request reply).map Call.handler := by
  induction chain generalizing reply with
  | nil => rfl
  | cons handler chain ih =>
    rw [reached, calls, Call.value_handle]
    cases Call.flow request ⟨handler, reply⟩ with
    | proceed => rw [if_neg (by decide), List.map_cons, ← ih]
    | stop => rfl

/-- **Running a chain is composition up to the first stop.** A chain behind another one runs on the reply that this one
leaves, unless a handler that is called in the run of this one stops it; then it is not called and has no effect. The
calls of a chain are the one row in which each handler is called once and in order, with what its predecessor made, up
to the end or to the first handler that stops. What the last call made is what the run leaves, also if it stops the
chain, and the run reports what its calls report. -/
theorem run_append_calls (front back : Chain) (request reply : Message) :
    ((run (front ++ back) request reply).value =
      if Stops front request reply then (run front request reply).value
      else (run back request (run front request reply).value).value) ∧
    (calls (front ++ back) request reply =
      if Stops front request reply then calls front request reply
      else calls front request reply ++ calls back request (run front request reply).value) ∧
    (∀ row, AreCalls front request reply row ↔ row = calls front request reply) ∧
    reached front request reply = (calls front request reply).map Call.handler ∧
    run front request reply =
      ⟨((calls front request reply).map (Call.made request)).getLastD reply,
        (calls front request reply).flatMap (Call.events request)⟩ := by
  refine ⟨?_, calls_append front back request reply, fun row => areCalls_iff, reached_eq_map front request reply,
    run_eq front request reply⟩
  rw [run_append]
  split <;> rfl

/-- A handler that counts itself in the hops of the reply. It lets the chain go on up to the first hop, and from the
second on it answers `last`. -/
def hop (name : String) (last : Flow) : Handler where
  name := name
  handle _ reply :=
    let hops := reply.header.hops + 1
    return ({ reply with header := { reply.header with hops } }, if hops < 2 then .proceed else last)

def hopChain : Chain := [hop "limit" .stop, hop "relay" .proceed, hop "limit" .stop]

/-- Whether a handler stops the chain is up to those in front of it: the first of two equal ones does not, the second
does, its hop is counted, and that of the handler behind it is not. -/
theorem run_append_calls_hopChain :
    ∃ row, AreCalls hopChain ⟨.blank, .empty⟩ ⟨.blank, .empty⟩ row ∧
      row.map (·.handler.name) = ["limit", "relay", "limit"] ∧
      row.map (·.given.header.hops) = [0, 1, 2] ∧
      (run (hopChain ++ [hop "relay" .proceed]) ⟨.blank, .empty⟩ ⟨.blank, .empty⟩).value.header.hops = 3 ∧
      (run hopChain ⟨.blank, .empty⟩ ⟨.blank, .empty⟩).events = [.chainStopped "limit"] := by
  obtain ⟨hvalue, -, hrow, -, hrun⟩ :=
    run_append_calls hopChain [hop "relay" .proceed] ⟨.blank, .empty⟩ ⟨.blank, .empty⟩
  refine ⟨_, (hrow _).2 rfl, rfl, rfl, ?_, ?_⟩
  · rw [hvalue, if_pos (by decide), hrun]
    rfl
  · rw [hrun]
    rfl

end ProxyDhcp.Chain
