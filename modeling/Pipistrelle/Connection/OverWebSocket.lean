import Pipistrelle.Connection.Handshake
import Pipistrelle.Connection.WebSocket
import Pipistrelle.Lib.Run

set_option autoImplicit false

/- A connection whose socket is the WebSocket adapter. read_buf polls until poll_read
   has something to say, and every poll offers the room that is left in read_buf; what
   messages the client cut its stream into shows in the reads and nowhere else. -/
namespace Pipistrelle.Connection

open Codec ChunkedDecode Broker

def PollRead.read : PollRead → Option ReadResult
  | .pending => none
  | .ready put => some (.bytes put)
  | .connectionReset => some .failed

def readResults (reading : Reading) (sizes : List Nat) : List ReadResult :=
  Run.outputs Reading.poll (fun reading size => (reading.polled size).read.toList) reading sizes

-- How the end of the stream below looks from read_buf.
def PollNext.closing (stop : PollNext) : ReadResult := if stop.eof then .bytes [] else .failed

theorem first_hit {α : Type} (hit : α → Bool) (body rest front more : List α) (stop next : α)
    (flows : ∀ other ∈ body, hit other = false) (stops : hit stop = true) (silent : ∀ other ∈ front, hit other = false)
    (split : body ++ stop :: rest = front ++ next :: more) :
    (hit next = true ∧ front = body ∧ next = stop ∧ more = rest) ∨
      ∃ later, hit next = false ∧ body = front ++ next :: later ∧ more = later ++ stop :: rest := by
  induction body generalizing front with
  | nil =>
      cases front with
      | nil =>
          obtain ⟨rfl, rfl⟩ := List.cons.inj split
          exact .inl ⟨stops, rfl, rfl, rfl⟩
      | cons first front =>
          obtain ⟨rfl, _⟩ := List.cons.inj split
          rw [silent stop (by simp)] at stops
          cases stops
  | cons first body ih =>
      obtain ⟨here, later⟩ := List.forall_mem_cons.mp flows
      cases front with
      | nil =>
          obtain ⟨rfl, rfl⟩ := List.cons.inj split
          exact .inr ⟨body, here, rfl, rfl⟩
      | cons head front =>
          obtain ⟨rfl, tail⟩ := List.cons.inj split
          rcases ih front later (List.forall_mem_cons.mp silent).2 tail with ⟨stopped, rfl, same, rest⟩ | ⟨between, goes, rfl, rest⟩
          · exact .inl ⟨stopped, rfl, same, rest⟩
          · exact .inr ⟨between, goes, rfl, rest⟩

inductive Polled (reading : Reading) (body rest : List PollNext) (stop : PollNext) (size : Nat) : Prop where
  | again (later : List PollNext) (waits : reading.polled size = .pending)
      (left : (reading.poll size).ws = later ++ stop :: rest) (shorter : later.length < body.length)
      (flows : ∀ next ∈ later, next.stops = false)
      (same : (reading.poll size).adapter.unread ++ payloads later = reading.adapter.unread ++ payloads body)
  | data (later : List PollNext) (put : Bytes) (bytes : reading.polled size = .ready put) (filled : put ≠ [])
      (left : (reading.poll size).ws = later ++ stop :: rest) (shorter : later.length ≤ body.length)
      (flows : ∀ next ∈ later, next.stops = false)
      (same : put ++ ((reading.poll size).adapter.unread ++ payloads later) = reading.adapter.unread ++ payloads body)
  | stopped (closes : (reading.polled size).read = some stop.closing) (empty : reading.adapter.unread ++ payloads body = [])

theorem silent_goes (skipped : List PollNext) (silent : Silent skipped) : ∀ next ∈ skipped, next.stops = false :=
  fun next member => (silent next member).2

theorem poll_progress (reading : Reading) (body rest : List PollNext) (stop : PollNext) (size : Nat) (room : 0 < size)
    (split : reading.ws = body ++ stop :: rest) (flows : ∀ next ∈ body, next.stops = false) (stops : stop.stops = true) :
    Polled reading body rest stop size := by
  by_cases empty : reading.adapter.unread = []
  · have fetched := poll_read_fetches size reading.adapter reading.ws empty
    generalize polls : reading.adapter.pollRead size reading.ws = result at fetched
    have polled : reading.polled size = result.1 := congrArg Prod.fst polls
    have adapter : (reading.poll size).adapter = result.2.1 := congrArg (·.2.1) polls
    have ws : (reading.poll size).ws = result.2.2 := congrArg (·.2.2) polls
    rw [split] at fetched
    cases fetched with
    | nothing silent =>
        have goes := (silent stop (by simp)).2
        rw [stops] at goes
        cases goes
    | pending skipped more found silent =>
        rcases first_hit PollNext.stops body rest skipped more stop .pending flows stops (silent_goes skipped silent) found with
          ⟨stopped, _⟩ | ⟨later, _, rfl, rfl⟩
        · cases stopped
        · refine .again later polled ws (by simp; omega) (fun next member => flows next (by simp [member])) ?_
          rw [adapter, payloads_silent skipped _ silent]
          rfl
    | eof skipped more last found silent ends =>
        rcases first_hit PollNext.stops body rest skipped more stop last flows stops (silent_goes skipped silent) found with
          ⟨_, rfl, rfl, _⟩ | ⟨_, goes, _⟩
        · refine .stopped (by rw [polled, PollNext.closing, if_pos ends]; rfl) ?_
          have nothing := payloads_silent skipped [] silent
          rw [List.append_nil] at nothing
          rw [empty, nothing]
          rfl
        · rw [eof_stops last ends] at goes
          cases goes
    | error skipped more found silent =>
        rcases first_hit PollNext.stops body rest skipped more stop .error flows stops (silent_goes skipped silent) found with
          ⟨_, rfl, rfl, _⟩ | ⟨_, goes, _⟩
        · refine .stopped (by rw [polled]; rfl) ?_
          have nothing := payloads_silent skipped [] silent
          rw [List.append_nil] at nothing
          rw [empty, nothing]
          rfl
        · cases goes
    | payload skipped more next later found silent filled goes left =>
        rcases first_hit PollNext.stops body rest skipped more stop next flows stops (silent_goes skipped silent) found with
          ⟨stopped, _⟩ | ⟨behind, _, rfl, rfl⟩
        · rw [goes] at stopped
          cases stopped
        · have nonempty : next.payload.take size ≠ [] := by
            intro cut
            rcases List.take_eq_nil_iff.mp cut with zero | blank
            · omega
            · exact filled blank
          refine .data behind _ polled nonempty ws (by simp; omega) (fun other member => flows other (by simp [member])) ?_
          rw [adapter, left, payloads_silent skipped _ silent, payloads_cons, empty, ← List.append_assoc,
            List.take_append_drop, List.nil_append]
  · obtain ⟨later, result, left⟩ := poll_read_buffered size reading.adapter reading.ws empty
    have polled : reading.polled size = .ready (reading.adapter.unread.take size) := congrArg Prod.fst result
    have adapter : (reading.poll size).adapter = later := congrArg (·.2.1) result
    have ws : (reading.poll size).ws = reading.ws := congrArg (·.2.2) result
    have nonempty : reading.adapter.unread.take size ≠ [] := by
      intro cut
      rcases List.take_eq_nil_iff.mp cut with zero | blank
      · omega
      · exact empty blank
    refine .data body _ polled nonempty (ws.trans split) (Nat.le_refl _) flows ?_
    rw [adapter, left, ← List.append_assoc, List.take_append_drop]

theorem reads_until_stop (sizes : List Nat) (reading : Reading) (body rest : List PollNext) (stop : PollNext)
    (room : ∀ size ∈ sizes, 0 < size) (split : reading.ws = body ++ stop :: rest)
    (flows : ∀ next ∈ body, next.stops = false) (stops : stop.stops = true)
    (enough : (reading.adapter.unread ++ payloads body).length + body.length < sizes.length) :
    ∃ (chunks : List Bytes) (more : List ReadResult), readResults reading sizes = chunks.map .bytes ++ stop.closing :: more ∧ (∀ chunk ∈ chunks, chunk ≠ []) ∧
      chunks.flatten = reading.adapter.unread ++ payloads body := by
  induction sizes generalizing reading body with
  | nil => simp at enough
  | cons size sizes ih =>
      obtain ⟨here, others⟩ := List.forall_mem_cons.mp room
      have first : readResults reading (size :: sizes) =
          (reading.polled size).read.toList ++ readResults (reading.poll size) sizes := rfl
      cases poll_progress reading body rest stop size here split flows stops with
      | again later waits left shorter flowing same =>
          obtain ⟨chunks, more, results, filled, bytes⟩ := ih (reading.poll size) later others left flowing (by
            rw [same]
            simp only [List.length_cons] at enough
            omega)
          exact ⟨chunks, more, by rw [first, waits, results]; rfl, filled, bytes.trans same⟩
      | data later put bytes filled left shorter flowing same =>
          have counted := congrArg List.length same
          rw [List.length_append] at counted
          have positive := List.length_pos_of_ne_nil filled
          obtain ⟨chunks, more, results, others, flat⟩ := ih (reading.poll size) later others left flowing (by
            simp only [List.length_cons] at enough
            omega)
          refine ⟨put :: chunks, more, by rw [first, bytes, results]; rfl, List.forall_mem_cons.mpr ⟨filled, others⟩, ?_⟩
          rw [List.flatten_cons, flat, same]
      | stopped closes empty =>
          exact ⟨[], readResults (reading.poll size) sizes, by rw [first, closes]; rfl, by simp, empty.symm⟩

theorem first_read (sizes : List Nat) (adapter : WebSocketStreamAdapter) (returned : Bytes) (front later rest : List PollNext)
    (next stop : PollNext) (empty : adapter.unread = []) (quiet : Silent front) (nonempty : next.payload ≠ [])
    (flows : ∀ other ∈ next :: later, other.stops = false) (stops : stop.stops = true) (room : ∀ size ∈ sizes, 0 < size)
    (enough : next.payload.length + (payloads later).length + front.length + later.length + 1 < sizes.length) :
    ∃ size ∈ sizes, ∃ (chunks : List Bytes) (more : List ReadResult),
      readResults ⟨adapter, front ++ next :: (later ++ stop :: rest), returned⟩ sizes =
        .bytes (next.payload.take size) :: (chunks.map .bytes ++ stop.closing :: more) ∧
      (∀ chunk ∈ chunks, chunk ≠ []) ∧ chunks.flatten = next.payload.drop size ++ payloads later := by
  induction sizes generalizing adapter returned front with
  | nil => simp at enough
  | cons size sizes ih =>
      obtain ⟨here, others⟩ := List.forall_mem_cons.mp room
      obtain ⟨goes, behind⟩ := List.forall_mem_cons.mp flows
      simp only [List.length_cons] at enough
      generalize split : front ++ next :: (later ++ stop :: rest) = ws
      have first : readResults ⟨adapter, ws, returned⟩ (size :: sizes) =
          ((⟨adapter, ws, returned⟩ : Reading).polled size).read.toList ++
            readResults ((⟨adapter, ws, returned⟩ : Reading).poll size) sizes := rfl
      have blank : ∀ skipped : List PollNext, Silent skipped → ∀ other ∈ skipped, decide (other.payload ≠ []) = false :=
        fun skipped silent other member => by simp [(silent other member).1]
      have hit : decide (next.payload ≠ []) = true := decide_eq_true nonempty
      have fetched := poll_read_fetches size adapter ws empty
      have polled : (⟨adapter, ws, returned⟩ : Reading).polled size = (adapter.pollRead size ws).1 := rfl
      have left : (⟨adapter, ws, returned⟩ : Reading).poll size =
          ⟨(adapter.pollRead size ws).2.1, (adapter.pollRead size ws).2.2,
            returned ++ (adapter.pollRead size ws).1.put⟩ := rfl
      rw [first, polled, left]
      generalize adapter.pollRead size ws = result at fetched
      cases fetched with
      | nothing silent => exact absurd (silent next (by simp [← split])).1 nonempty
      | pending skipped more found silent =>
          rcases first_hit _ front _ skipped more next .pending (blank front quiet) hit (blank skipped silent)
              (split.trans found) with ⟨stopped, _⟩ | ⟨between, _, rfl, rfl⟩
          · simp [PollNext.payload] at stopped
          · obtain ⟨size, member, rest⟩ := ih adapter (returned ++ []) between empty
              (fun other member => quiet other (by simp [member])) others (by
                simp only [List.length_append, List.length_cons] at enough
                omega)
            exact ⟨size, List.mem_cons_of_mem _ member, rest⟩
      | eof skipped more last found silent ends =>
          rcases first_hit _ front _ skipped more next last (blank front quiet) hit (blank skipped silent)
              (split.trans found) with ⟨_, _, rfl, _⟩ | ⟨between, _, rfl, rfl⟩
          · exact absurd (eof_payload last ends) nonempty
          · have flowing := (quiet last (by simp)).2
            rw [eof_stops last ends] at flowing
            cases flowing
      | error skipped more found silent =>
          rcases first_hit _ front _ skipped more next .error (blank front quiet) hit (blank skipped silent)
              (split.trans found) with ⟨stopped, _⟩ | ⟨between, _, rfl, rfl⟩
          · simp [PollNext.payload] at stopped
          · cases (quiet .error (by simp)).2
      | payload skipped more loaded kept found silent filled goesOn unread =>
          rcases first_hit _ front _ skipped more next loaded (blank front quiet) hit (blank skipped silent)
              (split.trans found) with ⟨_, _, rfl, rfl⟩ | ⟨_, missed, _⟩
          · obtain ⟨chunks, more, results, filled, bytes⟩ := reads_until_stop sizes ⟨kept, later ++ stop :: rest,
              returned ++ (PollRead.ready (loaded.payload.take size)).put⟩ later rest stop others rfl behind stops (by
                simp only [unread, List.length_append, List.length_drop]
                omega)
            exact ⟨size, by simp, chunks, more, by rw [results]; rfl, filled, by rw [bytes, unread]⟩
          · exact absurd filled (of_decide_eq_false missed)

section Loop

variable {ε σ : Type} (process : σ → Packet → σ × Option ε)

theorem stopped_reads (state : LoopState ε σ) (reads : List ReadResult) (exit : Exit ε) (stopped : state.status = .stopped exit) :
    reads.foldl (readStep process) state = state := by
  induction reads with
  | nil => rfl
  | cons read rest ih =>
      have same : readStep process state read = state := by simp only [readStep, stopped]
      rw [List.foldl_cons, same, ih]

theorem closing_stops (state : LoopState ε σ) (stop : PollNext) :
    ∃ exit, (readStep process state stop.closing).status = .stopped exit := by
  cases status : state.status with
  | stopped exit => exact ⟨exit, by simp only [readStep, status]⟩
  | waiting readBuf =>
      unfold PollNext.closing
      split
      · exact ⟨.closed, by simp only [readStep, status]⟩
      · exact ⟨.tcp, by simp only [readStep, status]⟩

theorem main_loop_closing (world : σ) (readBuf : Bytes) (first second : List Bytes) (same : first.flatten = second.flatten)
    (firstSome : ∀ chunk ∈ first, chunk ≠ []) (secondSome : ∀ chunk ∈ second, chunk ≠ []) (stop : PollNext)
    (more : List ReadResult) :
    mainLoop process world readBuf (first.map .bytes ++ stop.closing :: more) =
      mainLoop process world readBuf (second.map .bytes ++ [stop.closing]) := by
  have blank : ∀ chunks : List Bytes, (∀ chunk ∈ chunks, chunk ≠ []) → (chunks = [] ↔ chunks.flatten = []) := by
    intro chunks nonempty
    cases chunks with
    | nil => exact iff_of_true rfl rfl
    | cons chunk rest => simp [nonempty chunk (by simp)]
  have empty : first = [] ↔ second = [] := by rw [blank first firstSome, blank second secondSome, same]
  have reached : mainLoop process world readBuf (first.map .bytes) = mainLoop process world readBuf (second.map .bytes) := by
    rw [main_loop_drain process world readBuf first firstSome, main_loop_drain process world readBuf second secondSome, same]
    simp only [empty]
  unfold mainLoop at reached ⊢
  obtain ⟨exit, stopped⟩ := closing_stops process ((second.map ReadResult.bytes).foldl (readStep process)
    ⟨world, [], .waiting readBuf⟩) stop
  rw [List.foldl_append, List.foldl_cons, List.foldl_append, List.foldl_cons, reached, stopped_reads process _ more exit stopped]
  rfl

end Loop

-- A connection over the adapter is a TCP connection whose first read has what the first
-- read gets of the first payload, and where the other payloads arrive in any division.
theorem websocket_handled_as_tcp (verifyPassword : String → String → Bool) (broker : BrokerState)
    (front later rest : List PollNext) (next stop : PollNext) (quiet : Silent front) (nonempty : next.payload ≠ [])
    (flows : ∀ other ∈ next :: later, other.stops = false) (stops : stop.stops = true) (sizes : List Nat)
    (room : ∀ size ∈ sizes, 0 < size)
    (enough : next.payload.length + (payloads later).length + front.length + later.length + 1 < sizes.length) :
    ∃ size ∈ sizes, ∀ chunks : List Bytes, (∀ chunk ∈ chunks, chunk ≠ []) →
      chunks.flatten = next.payload.drop size ++ payloads later →
      handleConnection verifyPassword broker
          (readResults ⟨.new, front ++ next :: (later ++ stop :: rest), []⟩ sizes) =
        handleConnection verifyPassword broker
          (.bytes (next.payload.take size) :: (chunks.map .bytes ++ [stop.closing])) := by
  obtain ⟨size, member, reads, more, results, filled, bytes⟩ := first_read sizes .new [] front later rest next stop rfl quiet
    nonempty flows stops room enough
  refine ⟨size, member, fun chunks chunksSome same => ?_⟩
  rw [results, handleConnection, handleConnection]
  cases readConnect (.bytes (next.payload.take size)) with
  | error reason => rfl
  | ok connected =>
      have loops := main_loop_closing (serve (broker.openConnection connected.1).2) (broker.openConnection connected.1).1
        connected.2 reads chunks (bytes.trans same.symm) filled chunksSome stop more
      simp only [loops]

theorem connect_over_websocket :
    ∃ size ∈ List.replicate 24 4096, ∀ chunks : List Bytes, (∀ chunk ∈ chunks, chunk ≠ []) →
      chunks.flatten = anonymousConnect.bytes.drop size ++ [0xC0, 0x00] →
      handleConnection (fun _ _ => true) { auth := ⟨none⟩ } (readResults ⟨.new, [.message .ping,
          .message (.binary anonymousConnect.bytes), .pending, .message (.binary [0xC0]), .message (.binary [0x00]),
          .finished], []⟩ (List.replicate 24 4096)) =
        handleConnection (fun _ _ => true) { auth := ⟨none⟩ }
          (.bytes (anonymousConnect.bytes.take size) :: (chunks.map .bytes ++ [PollNext.finished.closing])) :=
  websocket_handled_as_tcp (fun _ _ => true) { auth := ⟨none⟩ } [.message .ping]
    [.pending, .message (.binary [0xC0]), .message (.binary [0x00])] [] (.message (.binary anonymousConnect.bytes)) .finished
    (by simp [Silent, PollNext.payload, PollNext.stops, PollNext.eof]) (by simp [PollNext.payload, anonymousConnect])
    (by simp [PollNext.stops, PollNext.eof]) rfl (List.replicate 24 4096) (by simp)
    (by simp [PollNext.payload, payloads, anonymousConnect])

end Pipistrelle.Connection
