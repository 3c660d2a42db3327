/-
Many datagrams at once. A step moves one copy at most (`Step.cases`): a copy that waits stays one, or its
answer is made, or it is done without an answer. So in whatever order the steps follow each other, the copies
that no longer wait are those that an answer was made of, one each, and some that have none
(`Steps.matched`). What lies in the buffer in the meantime makes no difference, since a copy is taken of each
datagram before the next one is received.

A run stops where nothing is left to do and nowhere else (`idle_iff`), and every run stops, as each step
leaves less to do (`Step.work_lt`). What it has sent by then is what `Server.serve` answers, one datagram after
the other (`sent_rel_serve`), and that work is such a run itself (`exists_steps_serve`).
-/
import Mathlib.Data.Multiset.Bind
import Mathlib.Data.Multiset.Filter
import ProxyDhcp.Proofs.Datagram

namespace ProxyDhcp

namespace Server

variable {server : Server}

/-! ## What a copy is answered with -/

/-- Two answers to the same place that differ at most in the order of the options. -/
def SameButForOrder (answer other : Bytes × Endpoint) : Prop :=
  answer.2 = other.2 ∧ ∃ reply : Message, reply.WrittenAs answer.1 ∧ reply.WrittenAs other.1

theorem Answers.sameButForOrder {copy : Bytes} {answer other : Bytes × Endpoint} (h : server.Answers copy answer)
    (h' : server.Answers copy other) : SameButForOrder answer other := by
  obtain ⟨reply, hreply, hwritten⟩ := h
  obtain ⟨again, hagain, hwritten'⟩ := h'
  obtain ⟨rfl, hdestination⟩ := Prod.ext_iff.1 (Option.some_injective _ (hreply.symm.trans hagain))
  exact ⟨hdestination, reply, hwritten, hwritten'⟩

theorem answer?_eq_some_iff {datagram : Bytes} {answer : Bytes × Endpoint} :
    server.answer? datagram = some answer ↔
      ∃ reply, handledReply? server.chain server.context (datagram.take bufferSize) = some (reply, answer.2) ∧
        reply.encode = .ok answer.1 := by
  rw [← handleDatagram_answered_iff, answer?, respond]
  cases (handleDatagram server.chain server.context (datagram.take bufferSize)).value <;>
    simp [Prod.ext_iff]

/-- The answer that `Server.answer?` gives is one of those that may be sent. -/
theorem answers_of_answer? {datagram : Bytes} {answer : Bytes × Endpoint}
    (h : server.answer? datagram = some answer) : server.Answers (datagram.take bufferSize) answer := by
  obtain ⟨reply, hreply, hencode⟩ := answer?_eq_some_iff.1 h
  exact ⟨reply, hreply, Message.wireLaws.writes_encode hencode⟩

theorem isSome_answer?_iff {datagram : Bytes} :
    (server.answer? datagram).isSome ↔ ∃ answer, server.Answers (datagram.take bufferSize) answer := by
  rw [Option.isSome_iff_exists]
  constructor
  · rintro ⟨answer, h⟩
    exact ⟨answer, answers_of_answer? h⟩
  · rintro ⟨answer, reply, hreply, hwritten⟩
    obtain ⟨packet, hencode⟩ := Message.wireLaws.exists_encode_of_writes hwritten
    exact ⟨(packet, answer.2), answer?_eq_some_iff.2 ⟨reply, hreply, hencode⟩⟩

theorem not_answers_of_error {copy : Bytes} {cause : DecodeError} (h : Message.decode copy = .error cause)
    (answer : Bytes × Endpoint) : ¬ server.Answers copy answer := by
  rintro ⟨reply, hreply, -⟩
  obtain ⟨request, -, hdecode, -⟩ := handledReply?_eq_some_iff.1 hreply
  cases h.symm.trans hdecode

/-- The server that `relayedRequest` names, with the PXE plugin. -/
def relayedServer : Server := ⟨relayedContext, [Handler.pxe .standard]⟩

/-- `relayedRequest` as it arrives. -/
def relayedDatagram : Bytes := relayedHeader.encode ++ relayedOptions

theorem answers_relayedDatagram :
    ∃ packet, relayedServer.Answers relayedDatagram (packet, ⟨⟨10, 0, 0, 1⟩, 67⟩) := by
  have hdecode : Message.decode relayedDatagram = .ok relayedRequest := decode_relayedOptions rfl rfl
  have typed := Message.serverTyped_of_canonical relayedRequest_canonical
  have hanswerable : Answerable relayedContext.serverId relayedRequest :=
    ⟨rfl, isPxeClient_relayedRequest, .inr ⟨_, rfl, rfl⟩, .ack, .inr ⟨.inl rfl, rfl⟩⟩
  obtain ⟨bare, hbare⟩ := newReply_of_answerable relayedRequest_proper typed hanswerable (by decide)
  obtain ⟨-, -, type, -, rfl⟩ := newReply_eq_reply relayedRequest_proper typed hbare
  obtain ⟨reply, hreply, -, hsingles, -⟩ := Reply.augment_bare relayedRequest_proper
    isPxeClient_relayedRequest type relayedRequest.header.address relayedContext.serverId
  obtain ⟨packet, hpacket⟩ := Message.exists_encode_of_singles hsingles
  have hrun : (relayedServer.chain.run relayedRequest _).value = reply := (Chain.run_pxe 0 _ _).trans hreply
  have hhandled := handledReply?_eq_some_iff.2 ⟨_, _, hdecode, hbare, hrun, rfl⟩
  exact ⟨packet, reply, hhandled, Message.wireLaws.writes_encode hpacket⟩

theorem take_relayedDatagram : relayedDatagram.take bufferSize = relayedDatagram := by
  refine List.take_of_length_le ?_
  rw [relayedDatagram, List.length_append, Header.length_encode]
  decide

/-! ## What a step does -/

def Task.copy? : Task → Option Bytes
  | .handling copy => some copy
  | .sending _ => none

def Task.answer? : Task → Option (Bytes × Endpoint)
  | .handling _ => none
  | .sending answer => some answer

/-- What is received of each datagram. -/
def copies (datagrams : List Bytes) : Multiset Bytes := ↑(datagrams.map (List.take bufferSize))

namespace State

/-- The datagram in the buffer, as long as no task has its copy. -/
def buffered (state : State) : Multiset Bytes :=
  match state.received with
  | none => 0
  | some length => {state.buffer.bytes.take length}

/-- The copies that are not handled yet, made or to be made. -/
def waiting (state : State) : Multiset Bytes :=
  (state.tasks : Multiset Task).filterMap Task.copy? + state.buffered + copies state.arriving

/-- The answers made so far, sent or to be sent. -/
def made (state : State) : Multiset (Bytes × Endpoint) :=
  (state.tasks : Multiset Task).filterMap Task.answer? + state.sent

end State

theorem coe_append_cons {α : Type} (before : List α) (a : α) (after : List α) :
    (↑(before ++ a :: after) : Multiset α) = a ::ₘ ↑(before ++ after) :=
  Multiset.coe_eq_coe.2 List.perm_middle

theorem Task.filterMap_copy?_handling (copy : Bytes) (tasks : Multiset Task) :
    (handling copy ::ₘ tasks).filterMap copy? = copy ::ₘ tasks.filterMap copy? :=
  Multiset.filterMap_cons_some copy? _ _ rfl

theorem Task.filterMap_copy?_sending (answer : Bytes × Endpoint) (tasks : Multiset Task) :
    (sending answer ::ₘ tasks).filterMap copy? = tasks.filterMap copy? :=
  Multiset.filterMap_cons_none _ _ rfl

theorem Task.filterMap_answer?_handling (copy : Bytes) (tasks : Multiset Task) :
    (handling copy ::ₘ tasks).filterMap answer? = tasks.filterMap answer? :=
  Multiset.filterMap_cons_none _ _ rfl

theorem Task.filterMap_answer?_sending (answer : Bytes × Endpoint) (tasks : Multiset Task) :
    (sending answer ::ₘ tasks).filterMap answer? = answer ::ₘ tasks.filterMap answer? :=
  Multiset.filterMap_cons_some answer? _ _ rfl

theorem copies_cons (datagram : Bytes) (datagrams : List Bytes) :
    copies (datagram :: datagrams) = datagram.take bufferSize ::ₘ copies datagrams := rfl

/-- A copy that waits stays one, or its answer is made, or it is done without one. -/
theorem Step.cases {state next : State} (step : Step server state next) :
    (next.waiting = state.waiting ∧ next.made = state.made) ∨
      (∃ copy answer, server.Answers copy answer ∧ state.waiting = copy ::ₘ next.waiting ∧
        next.made = answer ::ₘ state.made) ∨
      ∃ copy, (∀ answer, ¬ server.Answers copy answer) ∧ state.waiting = copy ::ₘ next.waiting ∧
        next.made = state.made := by
  cases step with
  | receive datagram arriving buffer tasks sent =>
    refine .inl ⟨?_, rfl⟩
    simp only [State.waiting, State.buffered, Bytes.Field.take_overwrite, copies_cons, add_zero]
    rw [add_assoc, Multiset.singleton_add]
  | spawn arriving buffer length tasks sent =>
    refine .inl ⟨?_, ?_⟩
    · simp only [State.waiting, State.buffered, coe_append_cons, List.append_nil, Task.filterMap_copy?_handling,
        add_zero]
      rw [← Multiset.singleton_add, add_comm {_}]
    · simp only [State.made, coe_append_cons, List.append_nil, Task.filterMap_answer?_handling]
  | answer arriving buffer received before copy after sent answer h =>
    refine .inr (.inl ⟨copy, answer, h, ?_, ?_⟩)
    · simp only [State.waiting, State.buffered, coe_append_cons, Task.filterMap_copy?_handling,
        Task.filterMap_copy?_sending, Multiset.cons_add]
    · simp only [State.made, coe_append_cons, Task.filterMap_answer?_handling, Task.filterMap_answer?_sending,
        Multiset.cons_add]
  | finish arriving buffer received before copy after sent h =>
    refine .inr (.inr ⟨copy, h, ?_, ?_⟩)
    · simp only [State.waiting, State.buffered, coe_append_cons, Task.filterMap_copy?_handling, Multiset.cons_add]
    · simp only [State.made, coe_append_cons, Task.filterMap_answer?_handling]
  | send arriving buffer received before answer after sent =>
    refine .inl ⟨?_, ?_⟩
    · simp only [State.waiting, State.buffered, coe_append_cons, Task.filterMap_copy?_sending]
    · simp only [State.made, coe_append_cons, List.append_nil, Task.filterMap_answer?_sending, Multiset.add_cons,
        Multiset.cons_add]

/-! ## What a run does -/

/-- The copies that no longer wait after a run are those that it made an answer of, one each, and some that
have none. -/
theorem Steps.matched {first last : State} (run : Steps server first last) :
    ∃ handled dropped answers, Multiset.Rel server.Answers handled answers ∧
      (∀ copy ∈ dropped, ∀ answer, ¬ server.Answers copy answer) ∧
      first.waiting = handled + dropped + last.waiting ∧ last.made = answers + first.made := by
  -- What waits at first and what waits now differ by the copies handled and dropped in between.
  induction run with
  | refl => exact ⟨0, 0, 0, .zero, by simp, by simp, by simp⟩
  | tail run step ih =>
    obtain ⟨handled, dropped, answers, hrel, hdropped, hwaiting, hmade⟩ := ih
    rw [hwaiting]
    rcases step.cases with
      ⟨hwaits, hmakes⟩ | ⟨copy, answer, hcopy, hwaits, hmakes⟩ | ⟨copy, hcopy, hwaits, hmakes⟩
    · exact ⟨handled, dropped, answers, hrel, hdropped, by rw [hwaits], by rw [hmakes, hmade]⟩
    · refine ⟨copy ::ₘ handled, dropped, answer ::ₘ answers, hrel.cons hcopy, hdropped, ?_, ?_⟩
      · rw [hwaits, Multiset.add_cons, Multiset.cons_add, Multiset.cons_add]
      · rw [hmakes, hmade, Multiset.cons_add]
    · refine ⟨handled, copy ::ₘ dropped, answers, hrel, Multiset.forall_mem_cons.2 ⟨hcopy, hdropped⟩, ?_, ?_⟩
      · rw [hwaits, Multiset.add_cons, Multiset.add_cons, Multiset.cons_add]
      · rw [hmakes, hmade]

theorem waiting_initial (datagrams : List Bytes) : (State.initial datagrams).waiting = copies datagrams := by
  simp [State.waiting, State.buffered, State.initial]

theorem made_initial (datagrams : List Bytes) : (State.initial datagrams).made = 0 := rfl

theorem State.Idle.waiting_eq {state : State} (h : state.Idle) : state.waiting = 0 := by
  obtain ⟨harriving, hreceived, htasks⟩ := h
  simp [State.waiting, State.buffered, copies, harriving, hreceived, htasks]

theorem State.Idle.made_eq {state : State} (h : state.Idle) : state.made = state.sent := by
  rw [State.made, h.2.2]
  rfl

/-- The next datagram is received, and a task gets its copy. -/
theorem Steps.take_next {first : State} {datagram : Bytes} {arriving : List Bytes} {buffer : Bytes.Field bufferSize}
    {tasks : List Task} {sent : List (Bytes × Endpoint)}
    (run : Steps server first ⟨datagram :: arriving, buffer, none, tasks, sent⟩) :
    Steps server first ⟨arriving, buffer.overwrite datagram, none,
      tasks ++ [.handling (datagram.take bufferSize)], sent⟩ := by
  have spawn : Step server
      ⟨arriving, buffer.overwrite datagram, some (min datagram.length bufferSize), tasks, sent⟩ _ := .spawn ..
  rw [Bytes.Field.take_overwrite] at spawn
  exact .tail (.tail run (.receive ..)) spawn

/-- Taking one datagram after the other, as `Server.serve` does, is one way of running. -/
theorem exists_steps_serve (server : Server) (datagrams : List Bytes) :
    ∃ buffer, Steps server (.initial datagrams) ⟨[], buffer, none, [], server.serve datagrams⟩ := by
  suffices h : ∀ first arriving buffer sent, Steps server first ⟨arriving, buffer, none, [], sent⟩ →
      ∃ buffer, Steps server first ⟨[], buffer, none, [], sent ++ server.serve arriving⟩ from
    h _ datagrams _ [] (.refl _)
  intro first arriving
  induction arriving with
  | nil =>
    intro buffer sent run
    exact ⟨buffer, by rwa [serve, List.filterMap_nil, List.append_nil]⟩
  | cons datagram arriving ih =>
    intro buffer sent run
    rw [serve, List.filterMap_cons]
    cases hanswer : server.answer? datagram with
    | none =>
      have hnone : ∀ answer, ¬ server.Answers (datagram.take bufferSize) answer :=
        not_exists.1 (mt isSome_answer?_iff.2 (by rw [hanswer]; decide))
      exact ih _ _ (run.take_next.tail (.finish _ _ _ [] _ [] _ hnone))
    | some answer =>
      have made := run.take_next.tail (.answer _ _ _ [] _ [] _ answer (answers_of_answer? hanswer))
      have sent := ih _ _ (made.tail (.send _ _ _ [] _ [] _))
      rwa [List.append_assoc] at sent

/-! ## How far a run can go -/

/-- How many steps are left at most: four for a datagram, three once it is received, two for a task that
handles its copy, and one for a task that sends its answer. -/
def State.work (state : State) : Nat :=
  4 * state.arriving.length + (if state.received.isSome then 3 else 0) + state.tasks.length +
    (state.tasks.filterMap Task.copy?).length

theorem Step.work_lt {state next : State} (step : Step server state next) : next.work < state.work := by
  cases step <;> simp [State.work, Task.copy?, List.filterMap_cons] <;> omega

theorem Step.wellFounded (server : Server) : WellFounded fun next state => Step server state next :=
  Subrelation.wf Step.work_lt (measure State.work).wf

theorem exists_step {state : State} (h : ¬ state.Idle) : ∃ next, Step server state next := by
  obtain ⟨arriving, buffer, received, tasks, sent⟩ := state
  cases received with
  | some length => exact ⟨_, .spawn arriving buffer length tasks sent⟩
  | none =>
    cases arriving with
    | cons datagram arriving => exact ⟨_, .receive datagram arriving buffer tasks sent⟩
    | nil =>
      cases tasks with
      | nil => exact absurd ⟨rfl, rfl, rfl⟩ h
      | cons task tasks =>
        cases task with
        | sending answer => exact ⟨_, .send [] buffer none [] answer tasks sent⟩
        | handling copy =>
          by_cases hanswer : ∃ answer, server.Answers copy answer
          · obtain ⟨answer, hanswer⟩ := hanswer
            exact ⟨_, .answer [] buffer none [] copy tasks sent answer hanswer⟩
          · exact ⟨_, .finish [] buffer none [] copy tasks sent (not_exists.1 hanswer)⟩

/-- A run stops where nothing is left to do, and only there. -/
theorem idle_iff {state : State} : state.Idle ↔ ∀ next, ¬ Step server state next := by
  constructor
  · rintro ⟨harriving, hreceived, htasks⟩ next step
    cases step <;> simp at harriving hreceived htasks
  · intro h
    by_contra hidle
    obtain ⟨next, step⟩ := exists_step hidle
    exact h next step

/-! ## What is sent -/

/-- The copies that have an answer. -/
def answered (server : Server) (datagrams : List Bytes) : Multiset Bytes :=
  (copies datagrams).filter fun copy => (server.answer? copy).isSome

theorem take_of_mem_copies {datagrams : List Bytes} {copy : Bytes} (h : copy ∈ copies datagrams) :
    copy.take bufferSize = copy := by
  obtain ⟨datagram, -, rfl⟩ := List.mem_map.1 (Multiset.mem_coe.1 h)
  rw [List.take_take, Nat.min_self]

theorem answer?_take (datagram : Bytes) : server.answer? (datagram.take bufferSize) = server.answer? datagram := by
  simp only [answer?, respond, List.take_take, Nat.min_self]

theorem answered_eq (datagrams : List Bytes) :
    server.answered datagrams = copies (datagrams.filter fun datagram => (server.answer? datagram).isSome) := by
  simp only [answered, copies, Multiset.filter_coe, List.filter_map, Function.comp_def, answer?_take,
    Bool.decide_eq_true]

/-- One datagram after the other, what the copies with an answer are answered with. -/
theorem rel_serve (server : Server) (datagrams : List Bytes) :
    Multiset.Rel server.Answers (server.answered datagrams) (server.serve datagrams) := by
  rw [answered_eq]
  induction datagrams with
  | nil => exact .zero
  | cons datagram datagrams ih =>
    rw [serve, List.filter_cons, List.filterMap_cons]
    cases hanswer : server.answer? datagram with
    | none => exact ih
    | some answer => exact .cons (answers_of_answer? hanswer) ih

/-- The copies that are no longer among the waiting ones and have an answer are those whose answer was made. -/
theorem Steps.handled {datagrams : List Bytes} {state : State} (run : Steps server (.initial datagrams) state) :
    ∃ handled, Multiset.Rel server.Answers handled state.made ∧
      handled + state.waiting.filter (fun copy => (server.answer? copy).isSome) = server.answered datagrams := by
  obtain ⟨handled, dropped, answers, hrel, hdropped, hwaiting, hmade⟩ := run.matched
  rw [waiting_initial] at hwaiting
  rw [made_initial, add_zero] at hmade
  -- A copy is its own first 1500 bytes, so `answer?` answers it as the task that handles it does.
  have htake (copy : Bytes) (h : copy ∈ handled + dropped) : copy.take bufferSize = copy :=
    take_of_mem_copies (hwaiting ▸ Multiset.mem_add.2 (.inl h))
  refine ⟨handled, hmade ▸ hrel, ?_⟩
  have hkept : handled.filter (fun copy => (server.answer? copy).isSome) = handled := by
    refine Multiset.filter_eq_self.2 fun copy hcopy => ?_
    obtain ⟨answer, -, hanswer⟩ := Multiset.exists_mem_of_rel_of_mem hrel hcopy
    rw [isSome_answer?_iff, htake copy (Multiset.mem_add.2 (.inl hcopy))]
    exact ⟨answer, hanswer⟩
  have hgone : dropped.filter (fun copy => (server.answer? copy).isSome) = 0 := by
    refine Multiset.filter_eq_nil.2 fun copy hcopy hsome => ?_
    rw [isSome_answer?_iff, htake copy (Multiset.mem_add.2 (.inr hcopy))] at hsome
    obtain ⟨answer, hanswer⟩ := hsome
    exact hdropped copy hcopy answer hanswer
  rw [answered, hwaiting, Multiset.filter_add, Multiset.filter_add, hkept, hgone, add_zero]

/-- Two rows of answers to the same copies. -/
theorem rel_sameButForOrder {handled : Multiset Bytes} {answers others : Multiset (Bytes × Endpoint)}
    (h : Multiset.Rel server.Answers handled answers) (h' : Multiset.Rel server.Answers handled others) :
    Multiset.Rel SameButForOrder answers others := by
  induction h generalizing others with
  | zero =>
    rw [Multiset.rel_zero_left.1 h']
    exact .zero
  | cons hanswer _ ih =>
    obtain ⟨other, rest, hother, hrest, rfl⟩ := Multiset.rel_cons_left.1 h'
    exact .cons (hanswer.sameButForOrder hother) (ih hrest)

theorem State.Idle.rel_sent {datagrams : List Bytes} {state : State} (idle : state.Idle)
    (run : Steps server (.initial datagrams) state) :
    Multiset.Rel server.Answers (server.answered datagrams) state.sent := by
  obtain ⟨handled, hrel, hanswered⟩ := run.handled
  rw [idle.waiting_eq, Multiset.filter_zero, add_zero] at hanswered
  rwa [← hanswered, ← idle.made_eq]

/-- **Datagrams do not influence each other.** In whatever order the steps of a run follow each other, what it
has sent are answers that the datagrams get one by one, each at most once. A run that has nothing left to do
has sent them all; it stops nowhere else, and cannot go on for ever. And a run of other datagrams sends the
same if those that have an answer are the same. -/
theorem sent_rel_serve {datagrams : List Bytes} {state : State} (run : Steps server (.initial datagrams) state) :
    (∃ answers ≤ (↑(server.serve datagrams) : Multiset (Bytes × Endpoint)),
      Multiset.Rel SameButForOrder state.sent answers) ∧
    (state.Idle → Multiset.Rel SameButForOrder state.sent (server.serve datagrams)) ∧
    (state.Idle ↔ ∀ next, ¬ Step server state next) ∧
    Acc (fun after before => Step server before after) state ∧
    ∀ others last, Steps server (.initial others) last → state.Idle → last.Idle →
      (datagrams.filter fun datagram => (server.answer? datagram).isSome).Perm
        (others.filter fun datagram => (server.answer? datagram).isSome) →
      Multiset.Rel SameButForOrder state.sent last.sent := by
  refine ⟨?_, fun idle => ?_, idle_iff, (Step.wellFounded server).apply state, ?_⟩
  · obtain ⟨handled, hrel, hanswered⟩ := run.handled
    obtain ⟨unsent, gone, -, hsent, rfl⟩ := Multiset.rel_add_right.1 hrel
    -- Beside the answers to the copies in `gone`, `serve` gives those not sent yet and those not made yet.
    have hserve := rel_serve server datagrams
    rw [← hanswered, add_comm unsent, add_assoc, Multiset.rel_add_left] at hserve
    obtain ⟨answers, pending, hanswers, -, heq⟩ := hserve
    exact ⟨answers, heq ▸ Multiset.le_add_right answers pending, rel_sameButForOrder hsent hanswers⟩
  · exact rel_sameButForOrder (idle.rel_sent run) (rel_serve server datagrams)
  · intro others last otherRun idle otherIdle hperm
    have hanswered : server.answered datagrams = server.answered others := by
      rw [answered_eq, answered_eq]
      exact Multiset.coe_eq_coe.2 (hperm.map _)
    exact rel_sameButForOrder (idle.rel_sent run) (hanswered ▸ otherIdle.rel_sent otherRun)

/-- The second datagram lies over the first in the buffer and is given up before the first is handled. -/
theorem sent_rel_serve_relayedDatagram :
    ∃ packet state, Steps relayedServer (.initial [relayedDatagram, [1, 2, 3]]) state ∧ state.Idle ∧
      state.sent = [(packet, ⟨⟨10, 0, 0, 1⟩, 67⟩)] ∧
      Multiset.Rel SameButForOrder state.sent (relayedServer.serve [relayedDatagram, [1, 2, 3]]) := by
  obtain ⟨packet, hanswer⟩ := answers_relayedDatagram
  rw [← take_relayedDatagram] at hanswer
  have start : Steps relayedServer (.initial [relayedDatagram, [1, 2, 3]]) _ := .refl _
  have taken := start.take_next.take_next
  have given := taken.tail (.finish _ _ _ [.handling _] _ [] _ (not_answers_of_error rfl))
  have run := (given.tail (.answer _ _ _ [] _ [] _ _ hanswer)).tail (.send _ _ _ [] _ [] _)
  exact ⟨packet, _, run, ⟨rfl, rfl, rfl⟩, rfl, (sent_rel_serve run).2.1 ⟨rfl, rfl, rfl⟩⟩

end Server

end ProxyDhcp
