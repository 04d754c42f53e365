import Pipistrelle.Codec.ReaderLaws

set_option autoImplicit false

/- src/websocket.rs, the reading half. The WebSocketStream under the adapter is outside
   of the repository: what its poll_next returns, call by call, is a list, and the
   empty list is a stream that has nothing to return yet. -/
namespace Pipistrelle.Connection

open Codec

-- tungstenite's Message. The payloads of control frames are not looked at.
inductive Message where
  | text (txt : String)
  | binary (bin : Bytes)
  | ping
  | pong
  | close
  | frame
deriving DecidableEq, Repr

-- Poll<Option<Result<Message, Error>>>
inductive PollNext where
  | pending
  | message (msg : Message)
  | error
  | finished
deriving DecidableEq, Repr

structure WebSocketStreamAdapter where
  readBuffer : Bytes
  readCursor : Nat
  writeBuffer : Bytes
deriving DecidableEq, Repr

def WebSocketStreamAdapter.new : WebSocketStreamAdapter := ⟨[], 0, []⟩

-- Poll<io::Result<()>>, with the bytes that were put into the caller's buffer.
inductive PollRead where
  | pending
  | ready (put : Bytes)
  | connectionReset
deriving DecidableEq, Repr

def PollRead.put : PollRead → Bytes
  | .ready put => put
  | _ => []

-- The loop of poll_read over a destination with that many bytes remaining.
def WebSocketStreamAdapter.pollRead (remaining : Nat) (self : WebSocketStreamAdapter) (ws : List PollNext) :
    PollRead × WebSocketStreamAdapter × List PollNext :=
  if self.readCursor < self.readBuffer.length then
    let available := self.readBuffer.length - self.readCursor
    let toCopy := min available remaining
    (.ready ((self.readBuffer.drop self.readCursor).take toCopy), { self with readCursor := self.readCursor + toCopy }, ws)
  else
    match ws with
    | [] => (.pending, self, [])
    | .pending :: ws => (.pending, self, ws)
    | .message (.binary bin) :: ws =>
        if bin.isEmpty then pollRead remaining self ws
        else pollRead remaining { self with readBuffer := bin, readCursor := 0 } ws
    | .message (.text txt) :: ws =>
        if txt.isEmpty then pollRead remaining self ws
        else pollRead remaining { self with readBuffer := strBytes txt, readCursor := 0 } ws
    | .message .close :: ws => (.ready [], self, ws)
    | .message .ping :: ws | .message .pong :: ws => pollRead remaining self ws
    | .message .frame :: ws => pollRead remaining self ws
    | .error :: ws => (.connectionReset, self, ws)
    | .finished :: ws => (.ready [], self, ws)

def WebSocketStreamAdapter.unread (self : WebSocketStreamAdapter) : Bytes := self.readBuffer.drop self.readCursor

def PollNext.payload : PollNext → Bytes
  | .message (.binary bin) => bin
  | .message (.text txt) => strBytes txt
  | _ => []

def payloads (ws : List PollNext) : Bytes := ws.flatMap PollNext.payload

-- The end of the stream for the caller, by a close frame or by the end of the stream below.
def PollNext.eof : PollNext → Bool
  | .message .close | .finished => true
  | _ => false

def PollNext.stops (next : PollNext) : Bool := next.eof || next == .error

@[simp] theorem payloads_cons (next : PollNext) (ws : List PollNext) :
    payloads (next :: ws) = next.payload ++ payloads ws := List.flatMap_cons

theorem unread_nil_iff (adapter : WebSocketStreamAdapter) :
    adapter.unread = [] ↔ ¬adapter.readCursor < adapter.readBuffer.length := by
  rw [WebSocketStreamAdapter.unread, List.drop_eq_nil_iff, Nat.not_lt]

theorem str_bytes_nil (txt : String) (empty : strBytes txt = []) : txt = "" :=
  Option.some.inj (((from_utf8_some_iff [] txt).mpr empty.symm).symm.trans ((from_utf8_some_iff [] "").mpr rfl))

theorem poll_read_buffered (remaining : Nat) (adapter : WebSocketStreamAdapter) (ws : List PollNext)
    (buffered : adapter.unread ≠ []) :
    ∃ later, adapter.pollRead remaining ws = (.ready (adapter.unread.take remaining), later, ws) ∧
      later.unread = adapter.unread.drop remaining := by
  have inside := not_not.mp (mt (unread_nil_iff adapter).mpr buffered)
  have available : adapter.unread.length = adapter.readBuffer.length - adapter.readCursor := List.length_drop
  let toCopy := min (adapter.readBuffer.length - adapter.readCursor) remaining
  have copied : adapter.unread.take toCopy = adapter.unread.take remaining :=
    List.take_eq_take_iff.mpr (by rw [available]; omega)
  have left : adapter.unread.drop toCopy = adapter.unread.drop remaining :=
    List.drop_eq_drop_iff.mpr (by rw [available]; omega)
  rw [WebSocketStreamAdapter.pollRead.eq_def, if_pos inside, ← copied, ← left]
  exact ⟨{ adapter with readCursor := adapter.readCursor + toCopy }, rfl, List.drop_drop.symm⟩

-- Results on which poll_read goes round its loop again.
def Silent (skipped : List PollNext) : Prop := ∀ next ∈ skipped, next.payload = [] ∧ next.stops = false

inductive Fetched (remaining : Nat) (adapter : WebSocketStreamAdapter) (ws : List PollNext) :
    PollRead × WebSocketStreamAdapter × List PollNext → Prop where
  | nothing (silent : Silent ws) : Fetched remaining adapter ws (.pending, adapter, [])
  | pending (skipped rest : List PollNext) (split : ws = skipped ++ .pending :: rest) (silent : Silent skipped) :
      Fetched remaining adapter ws (.pending, adapter, rest)
  | eof (skipped rest : List PollNext) (last : PollNext) (split : ws = skipped ++ last :: rest)
      (silent : Silent skipped) (ends : last.eof = true) : Fetched remaining adapter ws (.ready [], adapter, rest)
  | error (skipped rest : List PollNext) (split : ws = skipped ++ .error :: rest) (silent : Silent skipped) :
      Fetched remaining adapter ws (.connectionReset, adapter, rest)
  | payload (skipped rest : List PollNext) (next : PollNext) (later : WebSocketStreamAdapter)
      (split : ws = skipped ++ next :: rest) (silent : Silent skipped) (nonempty : next.payload ≠ [])
      (goes : next.stops = false) (left : later.unread = next.payload.drop remaining) :
      Fetched remaining adapter ws (.ready (next.payload.take remaining), later, rest)

theorem Fetched.skip (remaining : Nat) (adapter : WebSocketStreamAdapter) (next : PollNext) (ws : List PollNext)
    (result : PollRead × WebSocketStreamAdapter × List PollNext) (empty : next.payload = []) (goes : next.stops = false)
    (fetched : Fetched remaining adapter ws result) : Fetched remaining adapter (next :: ws) result := by
  have longer : ∀ skipped, Silent skipped → Silent (next :: skipped) := fun skipped silent =>
    List.forall_mem_cons.mpr ⟨⟨empty, goes⟩, silent⟩
  cases fetched with
  | nothing silent => exact .nothing (longer _ silent)
  | pending skipped rest split silent => exact .pending (next :: skipped) rest (by rw [split]; rfl) (longer _ silent)
  | eof skipped rest last split silent ends =>
      exact .eof (next :: skipped) rest last (by rw [split]; rfl) (longer _ silent) ends
  | error skipped rest split silent => exact .error (next :: skipped) rest (by rw [split]; rfl) (longer _ silent)
  | payload skipped rest first later split silent nonempty goesOn left =>
      exact .payload (next :: skipped) rest first later (by rw [split]; rfl) (longer _ silent) nonempty goesOn left

theorem Fetched.loaded (remaining : Nat) (adapter loaded : WebSocketStreamAdapter) (next : PollNext) (ws : List PollNext)
    (nonempty : next.payload ≠ []) (goes : next.stops = false) (holds : loaded.unread = next.payload) :
    Fetched remaining adapter (next :: ws) (loaded.pollRead remaining ws) := by
  obtain ⟨later, returned, left⟩ := poll_read_buffered remaining loaded ws (by rw [holds]; exact nonempty)
  rw [returned, holds]
  exact .payload [] ws next later rfl (fun _ member => absurd member List.not_mem_nil) nonempty goes (by rw [left, holds])

theorem poll_read_fetches (remaining : Nat) (adapter : WebSocketStreamAdapter) (ws : List PollNext)
    (empty : adapter.unread = []) : Fetched remaining adapter ws (adapter.pollRead remaining ws) := by
  have quiet : Silent [] := fun _ member => absurd member List.not_mem_nil
  induction ws with
  | nil =>
      rw [WebSocketStreamAdapter.pollRead.eq_def, if_neg ((unread_nil_iff adapter).mp empty)]
      exact .nothing quiet
  | cons next ws ih =>
      rw [WebSocketStreamAdapter.pollRead.eq_def, if_neg ((unread_nil_iff adapter).mp empty)]
      cases next with
      | pending => exact .pending [] ws rfl quiet
      | error => exact .error [] ws rfl quiet
      | finished => exact .eof [] ws .finished rfl quiet rfl
      | message msg =>
          cases msg with
          | close => exact .eof [] ws (.message .close) rfl quiet rfl
          | ping => exact ih.skip _ _ _ _ _ rfl rfl
          | pong => exact ih.skip _ _ _ _ _ rfl rfl
          | frame => exact ih.skip _ _ _ _ _ rfl rfl
          | binary bin =>
              dsimp only
              by_cases blank : bin = []
              · rw [if_pos (List.isEmpty_iff.mpr blank)]
                exact ih.skip _ _ _ _ _ blank rfl
              · rw [if_neg (mt List.isEmpty_iff.mp blank)]
                exact .loaded _ _ _ (.message (.binary bin)) ws blank rfl rfl
          | text txt =>
              dsimp only
              by_cases blank : txt = ""
              · rw [if_pos (String.isEmpty_iff.mpr blank)]
                exact ih.skip _ _ _ _ _ (by rw [blank]; rfl) rfl
              · rw [if_neg (mt String.isEmpty_iff.mp blank)]
                exact .loaded _ _ _ (.message (.text txt)) ws (mt (str_bytes_nil txt) blank) rfl rfl

theorem payloads_silent (skipped rest : List PollNext) (silent : Silent skipped) :
    payloads (skipped ++ rest) = payloads rest := by
  induction skipped with
  | nil => rfl
  | cons next skipped ih =>
      obtain ⟨here, later⟩ := List.forall_mem_cons.mp silent
      rw [List.cons_append, payloads_cons, here.1, List.nil_append, ih later]

theorem eof_cases (next : PollNext) (ends : next.eof = true) : next = .message .close ∨ next = .finished := by
  unfold PollNext.eof at ends
  split at ends
  · exact .inl rfl
  · exact .inr rfl
  · cases ends

theorem eof_payload (next : PollNext) (ends : next.eof = true) : next.payload = [] := by
  rcases eof_cases next ends with rfl | rfl
  · rfl
  · rfl

structure Reading where
  adapter : WebSocketStreamAdapter
  ws : List PollNext
  returned : Bytes

def Reading.polled (reading : Reading) (remaining : Nat) : PollRead := (reading.adapter.pollRead remaining reading.ws).1

def Reading.poll (reading : Reading) (remaining : Nat) : Reading :=
  let (polled, adapter, ws) := reading.adapter.pollRead remaining reading.ws
  ⟨adapter, ws, reading.returned ++ polled.put⟩

def reads (ws : List PollNext) (sizes : List Nat) : Reading := sizes.foldl Reading.poll ⟨.new, ws, []⟩

def Reading.coming (reading : Reading) : Bytes := reading.adapter.unread ++ payloads reading.ws

theorem poll_returns (reading : Reading) (remaining : Nat) :
    (reading.poll remaining).returned = reading.returned ++ (reading.polled remaining).put := rfl

theorem poll_accounts (reading : Reading) (remaining : Nat) :
    (reading.polled remaining).put ++ (reading.poll remaining).coming = reading.coming ∧
      (reading.poll remaining).ws <:+ reading.ws := by
  unfold Reading.polled Reading.poll Reading.coming
  dsimp only
  by_cases empty : reading.adapter.unread = []
  · have fetched := poll_read_fetches remaining reading.adapter reading.ws empty
    generalize reading.adapter.pollRead remaining reading.ws = result at fetched
    cases fetched with
    | nothing silent =>
        refine ⟨?_, List.nil_suffix⟩
        have quiet := payloads_silent reading.ws [] silent
        rw [List.append_nil] at quiet
        simp [PollRead.put, quiet]
    | pending skipped rest split silent =>
        refine ⟨?_, split ▸ ⟨skipped ++ [.pending], by simp⟩⟩
        rw [split, payloads_silent skipped _ silent, payloads_cons]
        rfl
    | eof skipped rest last split silent ends =>
        refine ⟨?_, split ▸ ⟨skipped ++ [last], by simp⟩⟩
        rw [split, payloads_silent skipped _ silent, payloads_cons, eof_payload last ends]
        rfl
    | error skipped rest split silent =>
        refine ⟨?_, split ▸ ⟨skipped ++ [.error], by simp⟩⟩
        rw [split, payloads_silent skipped _ silent, payloads_cons]
        rfl
    | payload skipped rest next later split silent nonempty goes left =>
        refine ⟨?_, split ▸ ⟨skipped ++ [next], by simp⟩⟩
        rw [split, payloads_silent skipped _ silent, payloads_cons, empty, left, PollRead.put, List.nil_append,
          ← List.append_assoc, List.take_append_drop]
  · obtain ⟨later, result, left⟩ := poll_read_buffered remaining reading.adapter reading.ws empty
    rw [result]
    refine ⟨?_, List.suffix_refl _⟩
    rw [PollRead.put, left, ← List.append_assoc, List.take_append_drop]

theorem reads_account (ws : List PollNext) (sizes : List Nat) :
    (reads ws sizes).returned ++ (reads ws sizes).coming = payloads ws ∧ (reads ws sizes).ws <:+ ws := by
  have runs : ∀ reading : Reading,
      (sizes.foldl Reading.poll reading).returned ++ (sizes.foldl Reading.poll reading).coming =
        reading.returned ++ reading.coming ∧ (sizes.foldl Reading.poll reading).ws <:+ reading.ws := by
    induction sizes with
    | nil => exact fun reading => ⟨rfl, List.suffix_refl _⟩
    | cons size sizes ih =>
        intro reading
        obtain ⟨same, within⟩ := ih (reading.poll size)
        obtain ⟨step, suffix⟩ := poll_accounts reading size
        refine ⟨?_, within.trans suffix⟩
        rw [List.foldl_cons, same, poll_returns, List.append_assoc, step]
  exact runs ⟨.new, ws, []⟩

theorem poll_eof (reading : Reading) (remaining : Nat) (room : 0 < remaining)
    (ended : reading.polled remaining = .ready []) :
    reading.adapter.unread = [] ∧ ∃ skipped last, reading.ws = skipped ++ last :: (reading.poll remaining).ws ∧
      Silent skipped ∧ last.eof = true := by
  unfold Reading.polled at ended
  unfold Reading.poll
  by_cases empty : reading.adapter.unread = []
  · refine ⟨empty, ?_⟩
    have fetched := poll_read_fetches remaining reading.adapter reading.ws empty
    generalize reading.adapter.pollRead remaining reading.ws = result at fetched ended
    cases fetched with
    | nothing silent => cases ended
    | pending skipped rest split silent => cases ended
    | eof skipped rest last split silent ends => exact ⟨skipped, last, split, silent, ends⟩
    | error skipped rest split silent => cases ended
    | payload skipped rest next later split silent nonempty goes left =>
        have nothing := List.take_eq_nil_iff.mp (PollRead.ready.inj ended)
        exact absurd nothing (not_or.mpr ⟨Nat.ne_of_gt room, nonempty⟩)
  · obtain ⟨later, result, left⟩ := poll_read_buffered remaining reading.adapter reading.ws empty
    rw [result] at ended
    have nothing := List.take_eq_nil_iff.mp (PollRead.ready.inj ended)
    exact absurd nothing (not_or.mpr ⟨Nat.ne_of_gt room, empty⟩)

theorem poll_waits (reading : Reading) (remaining : Nat) (waits : reading.polled remaining = .pending) :
    reading.adapter.unread = [] ∧ ∃ skipped, Silent skipped ∧
      (reading.ws = skipped ∧ (reading.poll remaining).ws = [] ∨
        reading.ws = skipped ++ .pending :: (reading.poll remaining).ws) := by
  unfold Reading.polled at waits
  unfold Reading.poll
  by_cases empty : reading.adapter.unread = []
  · refine ⟨empty, ?_⟩
    have fetched := poll_read_fetches remaining reading.adapter reading.ws empty
    generalize reading.adapter.pollRead remaining reading.ws = result at fetched waits
    cases fetched with
    | nothing silent => exact ⟨reading.ws, silent, .inl ⟨rfl, rfl⟩⟩
    | pending skipped rest split silent => exact ⟨skipped, silent, .inr split⟩
    | eof skipped rest last split silent ends => cases waits
    | error skipped rest split silent => cases waits
    | payload skipped rest next later split silent nonempty goes left => cases waits
  · obtain ⟨later, result, left⟩ := poll_read_buffered remaining reading.adapter reading.ws empty
    rw [result] at waits
    cases waits

theorem poll_resets (reading : Reading) (remaining : Nat) (reset : reading.polled remaining = .connectionReset) :
    reading.adapter.unread = [] ∧ ∃ skipped, Silent skipped ∧
      reading.ws = skipped ++ .error :: (reading.poll remaining).ws := by
  unfold Reading.polled at reset
  unfold Reading.poll
  by_cases empty : reading.adapter.unread = []
  · refine ⟨empty, ?_⟩
    have fetched := poll_read_fetches remaining reading.adapter reading.ws empty
    generalize reading.adapter.pollRead remaining reading.ws = result at fetched reset
    cases fetched with
    | nothing silent => cases reset
    | pending skipped rest split silent => cases reset
    | eof skipped rest last split silent ends => cases reset
    | error skipped rest split silent => exact ⟨skipped, silent, split⟩
    | payload skipped rest next later split silent nonempty goes left => cases reset
  · obtain ⟨later, result, left⟩ := poll_read_buffered remaining reading.adapter reading.ws empty
    rw [result] at reset
    cases reset

theorem eof_stops (next : PollNext) (ends : next.eof = true) : next.stops = true := by
  rw [PollNext.stops, ends, Bool.true_or]

theorem stopped_payloads (ending : List PollNext) (stopped : ∀ next ∈ ending, next.stops = true ∨ next = .pending) :
    payloads ending = [] := by
  refine List.flatMap_eq_nil_iff.mpr fun next member => ?_
  rcases stopped next member with stops | rfl
  · cases next with
    | message msg =>
        cases msg with
        | close => rfl
        | ping | pong | frame => rfl
        | binary bin => cases stops
        | text txt => cases stops
    | pending | error | finished => rfl
  · rfl

theorem behind_stop (body ending front rest : List PollNext) (last : PollNext)
    (flows : ∀ next ∈ body, next.stops = false) (stops : last.stops = true)
    (split : front ++ last :: rest = body ++ ending) : ∀ next ∈ rest, next ∈ ending := by
  rcases List.append_eq_append_iff.mp split with ⟨more, flowed, ended⟩ | ⟨more, _, ended⟩
  · cases more with
    | nil =>
        rw [List.nil_append] at ended
        exact fun next member => ended ▸ List.mem_cons_of_mem _ member
    | cons first more =>
        obtain ⟨rfl, _⟩ := List.cons.inj ended
        have goes := flows last (flowed ▸ List.mem_append_right _ List.mem_cons_self)
        rw [goes] at stops
        cases stops
  · intro next member
    rw [ended]
    exact List.mem_append_right _ (List.mem_cons_of_mem _ member)

-- One more call after some, where the payloads of the body are all that flows. It waits or
-- fails only where the stream below does, with nothing left in the adapter.
structure Transparent (body : List PollNext) (before after : Reading) (polled : PollRead) : Prop where
  soFar : before.returned <+: payloads body
  noneLost : before.returned ++ before.coming = payloads body
  pending : polled = .pending → after.returned = before.returned ∧ after.coming = before.coming
  eof : polled = .ready [] → before.returned = payloads body ∧
    ∃ skipped last, before.ws = skipped ++ last :: after.ws ∧ (last = .message .close ∨ last = .finished)
  waits : polled = .pending → before.adapter.unread = [] ∧ ∃ skipped, Silent skipped ∧
    (before.ws = skipped ∧ after.ws = [] ∨ before.ws = skipped ++ .pending :: after.ws)
  resets : polled = .connectionReset → before.adapter.unread = [] ∧ ∃ skipped, Silent skipped ∧
    before.ws = skipped ++ .error :: after.ws

theorem reads_transparent (body ending : List PollNext) (flows : ∀ next ∈ body, next.stops = false)
    (stopped : ∀ next ∈ ending, next.stops = true ∨ next = .pending) (sizes : List Nat) (size : Nat) (room : 0 < size) :
    Transparent body (reads (body ++ ending) sizes) (reads (body ++ ending) (sizes ++ [size]))
      ((reads (body ++ ending) sizes).polled size) := by
  have all : payloads (body ++ ending) = payloads body := by
    rw [payloads, List.flatMap_append, ← payloads, ← payloads, stopped_payloads ending stopped, List.append_nil]
  obtain ⟨account, within⟩ := reads_account (body ++ ending) sizes
  rw [all] at account
  have next : reads (body ++ ending) (sizes ++ [size]) = (reads (body ++ ending) sizes).poll size := by
    rw [reads, List.foldl_append]
    rfl
  rw [next]
  generalize reads (body ++ ending) sizes = reading at account within
  refine ⟨⟨_, account⟩, account, fun waits => ?_, fun ended => ?_, poll_waits reading size, poll_resets reading size⟩
  · have step := (poll_accounts reading size).1
    rw [waits] at step
    refine ⟨?_, step⟩
    rw [poll_returns, waits]
    exact List.append_nil _
  · obtain ⟨empty, skipped, last, split, silent, ends⟩ := poll_eof reading size room ended
    obtain ⟨front, whole⟩ := within
    rw [split, ← List.append_assoc] at whole
    have rest := behind_stop body ending _ _ last flows (eof_stops last ends) whole
    have left := stopped_payloads _ fun next member => stopped next (rest next member)
    have coming : reading.coming = [] := by
      rw [Reading.coming, empty, split, payloads_silent skipped _ silent, payloads_cons, eof_payload last ends, left]
      rfl
    refine ⟨?_, skipped, last, split, eof_cases last ends⟩
    rwa [coming, List.append_nil] at account

def twoMessages : List PollNext := [.message (.binary [1, 2]), .pending, .message (.text "a")]

theorem reads_across_messages :
    Transparent twoMessages (reads (twoMessages ++ [.finished]) [1]) (reads (twoMessages ++ [.finished]) ([1] ++ [2]))
      ((reads (twoMessages ++ [.finished]) [1]).polled 2) :=
  reads_transparent twoMessages [.finished] (by decide) (by decide) [1] 2 (by decide)

end Pipistrelle.Connection
