import Pipistrelle.Connection.WebSocket
import Pipistrelle.Lib.Run

set_option autoImplicit false

/- src/websocket.rs, the writing half. Each call comes with what the sink below would
   answer in it. The sink keeps what start_send was given until a poll_flush of its own
   returns Ready(Ok): only then is it on the wire. -/
namespace Pipistrelle.Connection

open Codec

-- Poll<Result<(), _>>
inductive Poll where
  | pending
  | ready
  | failed
deriving DecidableEq, Repr

structure SinkAnswers where
  pollReady : Poll
  startSend : Bool
  pollFlush : Poll
  pollClose : Poll
deriving DecidableEq, Repr

structure Sink where
  waiting : List Bytes
  wire : List Bytes
deriving DecidableEq, Repr

def Sink.startSend (sink : Sink) (msg : Bytes) : Sink := { sink with waiting := sink.waiting ++ [msg] }

def Sink.pollFlush (sink : Sink) : Poll → Sink
  | .ready => ⟨[], sink.wire ++ sink.waiting⟩
  | _ => sink

-- The number of bytes that were accepted: all of them, at once.
def WebSocketStreamAdapter.pollWrite (self : WebSocketStreamAdapter) (buf : Bytes) : Nat × WebSocketStreamAdapter :=
  (buf.length, { self with writeBuffer := self.writeBuffer ++ buf })

def WebSocketStreamAdapter.pollFlush (self : WebSocketStreamAdapter) (ws : Sink) (answers : SinkAnswers) :
    Poll × WebSocketStreamAdapter × Sink :=
  if self.writeBuffer.isEmpty then (.ready, self, ws)
  else
    match answers.pollReady with
    | .ready =>
        let msg := self.writeBuffer
        let self := { self with writeBuffer := [] }
        if answers.startSend then
          let ws := (ws.startSend msg).pollFlush answers.pollFlush
          (answers.pollFlush, self, ws)
        else (.failed, self, ws)
    | .failed => (.failed, self, ws)
    | .pending => (.pending, self, ws)

def WebSocketStreamAdapter.pollShutdown (self : WebSocketStreamAdapter) (ws : Sink) (answers : SinkAnswers) :
    Poll × WebSocketStreamAdapter × Sink :=
  match self.pollFlush ws answers with
  | (.ready, self, ws) => (answers.pollClose, self, ws)
  | (.failed, self, ws) => (.failed, self, ws)
  | (.pending, self, ws) => (.pending, self, ws)

inductive WriteCall where
  | write (buf : Bytes)
  | flush (answers : SinkAnswers)
  | shutdown (answers : SinkAnswers)
deriving DecidableEq, Repr

structure Writing where
  adapter : WebSocketStreamAdapter
  ws : Sink
  accepted : Bytes
deriving DecidableEq, Repr

def Writing.new : Writing := ⟨.new, ⟨[], []⟩, []⟩

def Writing.step (writing : Writing) : WriteCall → Writing
  | .write buf =>
      let (n, adapter) := writing.adapter.pollWrite buf
      { writing with adapter := adapter, accepted := writing.accepted ++ buf.take n }
  | .flush answers =>
      let (_, adapter, ws) := writing.adapter.pollFlush writing.ws answers
      { writing with adapter := adapter, ws := ws }
  | .shutdown answers =>
      let (_, adapter, ws) := writing.adapter.pollShutdown writing.ws answers
      { writing with adapter := adapter, ws := ws }

-- The answers for the poll_flush of a call. poll_shutdown starts with one.
def WriteCall.flushes : WriteCall → Option SinkAnswers
  | .write _ => none
  | .flush answers | .shutdown answers => some answers

def FlushedAll (writing : Writing) (call : WriteCall) : Prop :=
  ∀ answers, call.flushes = some answers → (writing.adapter.pollFlush writing.ws answers).1 = .ready →
    (writing.step call).accepted = (writing.step call).ws.wire.flatten

def Settled (writing : Writing) (call : WriteCall) : Prop :=
  call.flushes.isSome → writing.adapter.writeBuffer = [] → writing.ws.waiting = []

def WriteCall.Sends (call : WriteCall) : Prop := ∀ answers, call.flushes = some answers → answers.startSend = true

structure Writing.Kept (writing : Writing) : Prop where
  account : writing.accepted = writing.ws.wire.flatten ++ (writing.ws.waiting.flatten ++ writing.adapter.writeBuffer)
  messages : ∀ msg ∈ writing.ws.waiting, msg ≠ []

theorem poll_flush_empty (adapter : WebSocketStreamAdapter) (ws : Sink) (answers : SinkAnswers)
    (empty : adapter.writeBuffer = []) : adapter.pollFlush ws answers = (.ready, adapter, ws) := by
  rw [WebSocketStreamAdapter.pollFlush, if_pos (List.isEmpty_iff.mpr empty)]

theorem poll_flush_cases (adapter : WebSocketStreamAdapter) (ws : Sink) (answers : SinkAnswers)
    (buffered : adapter.writeBuffer ≠ []) (sends : answers.startSend = true) :
    ((adapter.pollFlush ws answers).1 ≠ .ready ∧ (adapter.pollFlush ws answers).2 = (adapter, ws)) ∨
      adapter.pollFlush ws answers = (answers.pollFlush, { adapter with writeBuffer := [] },
        (ws.startSend adapter.writeBuffer).pollFlush answers.pollFlush) := by
  rw [WebSocketStreamAdapter.pollFlush, if_neg (mt List.isEmpty_iff.mp buffered)]
  cases answers.pollReady with
  | pending => exact .inl ⟨by simp, rfl⟩
  | failed => exact .inl ⟨by simp, rfl⟩
  | ready => exact .inr (by simp [sends])

theorem step_flushes (writing : Writing) (call : WriteCall) (answers : SinkAnswers)
    (flushes : call.flushes = some answers) :
    writing.step call = { writing with
      adapter := (writing.adapter.pollFlush writing.ws answers).2.1
      ws := (writing.adapter.pollFlush writing.ws answers).2.2 } := by
  cases call with
  | write buf => cases flushes
  | flush other =>
      cases flushes
      rfl
  | shutdown other =>
      cases flushes
      have same : (writing.adapter.pollShutdown writing.ws answers).2 =
          (writing.adapter.pollFlush writing.ws answers).2 := by
        unfold WebSocketStreamAdapter.pollShutdown
        obtain ⟨polled, adapter, ws⟩ := writing.adapter.pollFlush writing.ws answers
        cases polled with
        | pending | ready | failed => rfl
      rw [← same]
      rfl

theorem sink_flush_keeps (ws : Sink) (answer : Poll) :
    (ws.pollFlush answer).wire.flatten ++ (ws.pollFlush answer).waiting.flatten =
        ws.wire.flatten ++ ws.waiting.flatten ∧
      ∀ msg ∈ (ws.pollFlush answer).waiting, msg ∈ ws.waiting := by
  cases answer with
  | ready => exact ⟨by simp [Sink.pollFlush], by simp [Sink.pollFlush]⟩
  | pending | failed => exact ⟨rfl, fun _ member => member⟩

theorem step_kept (writing : Writing) (call : WriteCall) (sends : call.Sends) (kept : writing.Kept) :
    (writing.step call).Kept := by
  cases flushes : call.flushes with
  | none =>
      cases call with
      | flush answers | shutdown answers => cases flushes
      | write buf =>
          refine ⟨?_, kept.messages⟩
          simp [Writing.step, WebSocketStreamAdapter.pollWrite, kept.account]
  | some answers =>
      rw [step_flushes writing call answers flushes]
      by_cases empty : writing.adapter.writeBuffer = []
      · rw [poll_flush_empty _ _ _ empty]
        exact kept
      · rcases poll_flush_cases writing.adapter writing.ws answers empty (sends answers flushes) with ⟨_, same⟩ | handed
        · rw [same]
          exact kept
        · obtain ⟨bytes, members⟩ := sink_flush_keeps (writing.ws.startSend writing.adapter.writeBuffer) answers.pollFlush
          rw [handed]
          refine ⟨?_, fun msg member => ?_⟩
          · dsimp only
            rw [List.append_nil, bytes, kept.account, Sink.startSend]
            simp
          · rcases List.mem_append.mp (members msg member) with earlier | now
            · exact kept.messages msg earlier
            · rw [List.mem_singleton.mp now]
              exact empty

theorem flushed_all_iff (writing : Writing) (call : WriteCall) (sends : call.Sends) (kept : writing.Kept) :
    FlushedAll writing call ↔ Settled writing call := by
  cases flushes : call.flushes with
  | none => simp [FlushedAll, Settled, flushes]
  | some answers =>
      have step := step_flushes writing call answers flushes
      by_cases empty : writing.adapter.writeBuffer = []
      · -- The early return: what the sink keeps waiting is what is missing on the wire.
        have account := kept.account
        rw [empty, List.append_nil] at account
        rw [poll_flush_empty _ _ _ empty] at step
        have missing : writing.ws.waiting.flatten = [] ↔ writing.ws.waiting = [] := by
          rw [List.flatten_eq_nil_iff]
          refine ⟨fun blank => List.eq_nil_iff_forall_not_mem.mpr fun msg member => ?_, fun nothing => by simp [nothing]⟩
          exact kept.messages msg member (blank msg member)
        simp [FlushedAll, Settled, flushes, step, poll_flush_empty _ _ _ empty, account, empty, missing]
      · have settled : Settled writing call := fun _ blank => absurd blank empty
        refine iff_of_true (fun other same returned => ?_) settled
        obtain rfl : answers = other := Option.some.inj (flushes.symm.trans same)
        rcases poll_flush_cases writing.adapter writing.ws answers empty (sends answers flushes) with ⟨waits, _⟩ | handed
        · exact absurd returned waits
        · rw [handed] at returned step
          rw [step, kept.account]
          dsimp only at returned ⊢
          rw [returned]
          simp [Sink.pollFlush, Sink.startSend]

theorem new_kept : Writing.new.Kept := ⟨rfl, fun _ member => absurd member List.not_mem_nil⟩

theorem flush_complete_iff (calls : List WriteCall) (sends : ∀ call ∈ calls, call.Sends) :
    Run.Throughout Writing.step FlushedAll .new calls ↔ Run.Throughout Writing.step Settled .new calls :=
  Run.throughout_congr_within Writing.step WriteCall.Sends Writing.Kept FlushedAll Settled step_kept flushed_all_iff
    .new calls sends new_kept

def polledAgain : List WriteCall :=
  [.write [1], .flush ⟨.ready, true, .pending, .pending⟩, .flush ⟨.ready, true, .pending, .pending⟩]

theorem polled_again_sends : ∀ call ∈ polledAgain, call.Sends := by
  intro call member answers flushes
  rcases List.mem_cons.mp member with rfl | member
  · cases flushes
  · have same : call = .flush ⟨.ready, true, .pending, .pending⟩ := by simpa using member
    rw [same] at flushes
    cases flushes
    rfl

theorem flush_complete_polled_again :
    Run.Throughout Writing.step FlushedAll .new polledAgain ↔ Run.Throughout Writing.step Settled .new polledAgain :=
  flush_complete_iff polledAgain polled_again_sends

theorem flush_returns_before_wire :
    ¬∀ calls : List WriteCall, (∀ call ∈ calls, call.Sends) → Run.Throughout Writing.step FlushedAll .new calls := by
  intro all
  obtain ⟨_, _, again, _⟩ := all polledAgain polled_again_sends
  have missing := again ⟨.ready, true, .pending, .pending⟩ rfl (by decide)
  exact absurd missing (by decide)

end Pipistrelle.Connection
