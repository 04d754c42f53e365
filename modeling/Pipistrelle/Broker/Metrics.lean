import Pipistrelle.Broker.GrantedQos
import Pipistrelle.Lib.TextReader

set_option autoImplicit false

/- src/metrics.rs: what a scrape of the exporter tells of the broker's run. The request
   is not read, so that every scrape gets the same answer. -/
namespace Pipistrelle.Broker

open Codec Auth TextReader

def metricText (name help kind : String) (value : Nat) : String :=
  "# HELP " ++ name ++ " " ++ help ++ "\n# TYPE " ++ name ++ " " ++ kind ++ "\n" ++ name ++ " " ++ value.repr ++ "\n"

def metricsBody (activeConnections : Nat) (messagesPublished subscriptions : UInt64) : String :=
  metricText "pipistrelle_connections_total" "Total number of active client connections" "gauge" activeConnections ++
    metricText "pipistrelle_messages_published_total" "Total number of messages published" "counter"
      messagesPublished.toNat ++
    metricText "pipistrelle_subscriptions_total" "Total number of subscriptions active/added" "counter"
      subscriptions.toNat

def metricsResponse (body : String) : String :=
  "HTTP/1.1 200 OK" ++ "\r\n" ++ "Content-Type: text/plain; version=0.0.4; charset=utf-8" ++ "\r\n" ++
    "Content-Length: " ++ body.utf8ByteSize.repr ++ "\r\n" ++ "Connection: close" ++ "\r\n" ++ "\r\n" ++ body

-- What the spawned task writes to the socket, where nothing happens between its three reads.
def BrokerState.serveMetrics (self : BrokerState) : Bytes :=
  strBytes (metricsResponse (metricsBody self.sessions.entries.length self.metricsMessagesPublished
    self.metricsSubscriptions))

-- The other end: a client that knows HTTP and the text format, not this exporter.
def scrape (received : Bytes) : Option (List (String × Nat)) := (httpBody (asciiText received)).map samples

theorem samples_metric (name help kind : String) (value : Nat) (rest : List Char) (noSpace : ' ' ∉ name.toList)
    (noComment : name.toList.head? ≠ some '#') (named : name.toList ≠ [])
    (oneLine : '\n' ∉ name.toList ++ help.toList ++ kind.toList) :
    samples ((metricText name help kind value).toList ++ rest) = (name, value) :: samples rest := by
  simp only [List.mem_append, not_or] at oneLine
  obtain ⟨⟨oneName, oneHelp⟩, oneKind⟩ := oneLine
  have lines : (metricText name help kind value).toList ++ rest =
      ('#' :: (" HELP ".toList ++ name.toList ++ ' ' :: help.toList)) ++ '\n' ::
        (('#' :: (" TYPE ".toList ++ name.toList ++ ' ' :: kind.toList)) ++ '\n' ::
          ((name.toList ++ ' ' :: value.repr.toList) ++ '\n' :: rest)) := by
    have helpText : "# HELP ".toList = '#' :: " HELP ".toList := by decide +kernel
    have typeText : "\n# TYPE ".toList = '\n' :: '#' :: " TYPE ".toList := by decide +kernel
    have space : " ".toList = [' '] := by decide +kernel
    have newline : "\n".toList = ['\n'] := by decide +kernel
    unfold metricText
    repeat rw [String.toList_append]
    rw [helpText, typeText, space, newline]
    generalize " HELP ".toList = helpText
    generalize " TYPE ".toList = typeText
    simp only [List.append_assoc, List.cons_append, List.nil_append]
  have oneValue := repr_absent value '\n' rfl
  rw [lines, samples_line, samples_line, samples_line, sample_comment, sample_comment,
    sample_value name value noSpace noComment named]
  · rfl
  · rw [List.mem_append, List.mem_cons, not_or, not_or]
    exact ⟨oneName, by decide, oneValue⟩
  · simp [oneName, oneKind]
  · simp [oneName, oneHelp]

theorem samples_body (activeConnections : Nat) (messagesPublished subscriptions : UInt64) :
    samples (metricsBody activeConnections messagesPublished subscriptions).toList =
      [("pipistrelle_connections_total", activeConnections),
        ("pipistrelle_messages_published_total", messagesPublished.toNat),
        ("pipistrelle_subscriptions_total", subscriptions.toNat)] := by
  rw [metricsBody, String.toList_append, String.toList_append, List.append_assoc, samples_metric, samples_metric]
  · rw [← List.append_nil (metricText _ _ _ subscriptions.toNat).toList, samples_metric]
    · rfl
    all_goals decide +kernel
  all_goals decide +kernel

theorem ascii_metric (name help kind : String) (value : Nat)
    (ascii : Ascii (name.toList ++ help.toList ++ kind.toList)) : Ascii (metricText name help kind value).toList := by
  rw [ascii_append, ascii_append] at ascii
  obtain ⟨⟨asciiName, asciiHelp⟩, asciiKind⟩ := ascii
  have words : Ascii "# HELP ".toList ∧ Ascii " ".toList ∧ Ascii "\n# TYPE ".toList ∧ Ascii "\n".toList := by
    decide +kernel
  unfold metricText
  repeat rw [String.toList_append]
  simp only [ascii_append, words, asciiName, asciiHelp, asciiKind, ascii_repr, and_self]

theorem ascii_body (activeConnections : Nat) (messagesPublished subscriptions : UInt64) :
    Ascii (metricsBody activeConnections messagesPublished subscriptions).toList := by
  rw [metricsBody, String.toList_append, String.toList_append, ascii_append, ascii_append]
  refine ⟨⟨ascii_metric _ _ _ _ ?_, ascii_metric _ _ _ _ ?_⟩, ascii_metric _ _ _ _ ?_⟩ <;> decide +kernel

def responseLines (length : Nat) : List String :=
  ["HTTP/1.1 200 OK", "Content-Type: text/plain; version=0.0.4; charset=utf-8", "Content-Length: " ++ length.repr,
    "Connection: close"]

def responseHead (length : Nat) : List Char := crlf.intercalate ((responseLines length).map String.toList)

theorem lines_text (status contentType name length close body : String) :
    (status ++ "\r\n" ++ contentType ++ "\r\n" ++ name ++ length ++ "\r\n" ++ close ++ "\r\n" ++ "\r\n" ++ body).toList =
      crlf.intercalate [status.toList, contentType.toList, (name ++ length).toList, close.toList] ++
        (blankLine ++ body.toList) := by
  simp [crlf, blankLine, List.intercalate_cons_cons]

theorem response_parts (body : String) :
    (metricsResponse body).toList = responseHead body.utf8ByteSize ++ (blankLine ++ body.toList) :=
  lines_text "HTTP/1.1 200 OK" "Content-Type: text/plain; version=0.0.4; charset=utf-8" "Content-Length: "
    body.utf8ByteSize.repr "Connection: close" body

theorem length_line_read (length : Nat) :
    contentLength (("Content-Length: " ++ length.repr).toList ++ ['\r']) = some length := by
  have name : "Content-Length: ".toList = "Content-Length".toList ++ [':', ' '] := by decide +kernel
  have cut : cutAt [':', ' '] (("Content-Length: " ++ length.repr).toList ++ ['\r']) =
      some ("Content-Length".toList, length.repr.toList ++ ['\r']) := by
    rw [String.toList_append, name, List.append_assoc, List.append_assoc]
    exact cut_at_first ':' [' '] "Content-Length".toList (length.repr.toList ++ ['\r']) (by decide +kernel)
  have digits : (length.repr.toList ++ ['\r']).takeWhile (· ≠ '\r') = length.repr.toList := by
    rw [List.takeWhile_append_of_pos]
    · exact List.append_nil _
    · intro char member
      exact decide_eq_true fun same => repr_absent length '\r' rfl (same ▸ member)
  rw [contentLength, cut, Option.bind_some]
  dsimp only
  rw [String.ofList_toList, if_pos rfl, digits, decimal_repr]

theorem response_lines_plain (length : Nat) (char : Char) (noDigit : char.isDigit = false)
    (fixed : ∀ line ∈ responseLines 0, char ∉ line.toList) : ∀ line ∈ responseLines length, char ∉ line.toList := by
  simp only [responseLines, List.forall_mem_cons] at fixed ⊢
  obtain ⟨status, contentType, name, close⟩ := fixed
  rw [String.toList_append, List.mem_append, not_or] at name ⊢
  exact ⟨status, contentType, ⟨name.1, repr_absent length char noDigit⟩, close⟩

theorem response_head (length : Nat) (rest : List Char) :
    cutAt blankLine (responseHead length ++ (blankLine ++ rest)) = some (responseHead length, rest) := by
  have single := response_lines_plain length '\r' rfl (by decide +kernel)
  have filled : ∀ line ∈ responseLines length, line.toList ≠ [] := by
    simp [responseLines]
  refine head_cut _ _ rest ?_
  intro line member
  have mapped : line ∈ (responseLines length).map String.toList := member
  obtain ⟨text, inside, rfl⟩ := List.mem_map.mp mapped
  exact ⟨single text inside, filled text inside⟩

theorem response_length (length : Nat) :
    ((responseHead length).splitOn '\n').findSome? contentLength = some length := by
  have single := response_lines_plain length '\n' rfl (by decide +kernel)
  have others : ∀ line ∈ ["HTTP/1.1 200 OK", "Content-Type: text/plain; version=0.0.4; charset=utf-8"],
      '\n' ∉ line.toList ∧ contentLength (line.toList ++ ['\r']) = none := by decide +kernel
  refine head_field (["HTTP/1.1 200 OK", "Content-Type: text/plain; version=0.0.4; charset=utf-8"].map String.toList) _
    "Connection: close".toList [] length (List.forall_mem_map.mpr others) ?_ (length_line_read length)
  exact single _ (.tail _ (.tail _ (.head _)))

theorem http_body_response (body : String) (length : body.toList.length = body.utf8ByteSize) :
    httpBody (metricsResponse body).toList = some body.toList := by
  rw [httpBody, response_parts, response_head, Option.bind_some]
  dsimp only
  rw [response_length, Option.bind_some, ← length, if_neg (Nat.lt_irrefl _), List.take_length]

theorem http_body_partial (body : String) (length : body.toList.length = body.utf8ByteSize)
    (received missing : List Char) (more : missing ≠ []) (cut : received ++ missing = (metricsResponse body).toList) :
    httpBody received = none := by
  rw [httpBody]
  cases found : cutAt blankLine received with
  | none => rfl
  | some parts =>
      obtain ⟨head, rest⟩ := parts
      have whole := cut_at_append blankLine received missing head rest found
      rw [cut, response_parts, response_head, Option.some_inj, Prod.mk.injEq] at whole
      obtain ⟨rfl, bodyParts⟩ := whole
      have short : rest.length < body.utf8ByteSize := by
        rw [← length, bodyParts, List.length_append]
        exact Nat.lt_add_of_pos_right (List.length_pos_iff.mpr more)
      rw [Option.bind_some]
      dsimp only
      rw [response_length, Option.bind_some, if_pos short]

theorem str_bytes_ascii (text : String) (ascii : Ascii text.toList) :
    asciiText (strBytes text) = text.toList ∧ text.toList.length = text.utf8ByteSize := by
  have bytes : strBytes text = text.toList.flatMap String.utf8EncodeChar := by
    rw [strBytes, ← String.utf8Encode_toList, List.utf8Encode, List.toList_data_toByteArray]
  have read : asciiText (strBytes text) = text.toList := by
    rw [bytes, ascii_text_utf8 _ ascii]
  refine ⟨read, ?_⟩
  rw [← read, asciiText, List.length_map]
  rfl

theorem ascii_response (body : String) (ascii : Ascii body.toList) : Ascii (metricsResponse body).toList := by
  have lines : ∀ line ∈ ["HTTP/1.1 200 OK", "Content-Type: text/plain; version=0.0.4; charset=utf-8",
      "Content-Length: ", "Connection: close", "\r\n"], Ascii line.toList := by decide +kernel
  simp only [List.forall_mem_cons] at lines
  obtain ⟨status, contentType, name, close, newline, _⟩ := lines
  unfold metricsResponse
  repeat rw [String.toList_append]
  simp only [ascii_append, status, contentType, name, close, newline, ascii, ascii_repr, and_self]

section Run

variable (verifyPassword : String → String → Bool)

-- Which client ids lead to a session: from an accepted CONNECT on, until a cleanup.
def Network.registration (self : Network) : Event → Option (String × Bool)
  | .connect pkt => if authenticated verifyPassword self.broker.auth pkt then some (pkt.clientId, true) else none
  | .close k => self.connections[k]?.bind fun connection =>
      if connection.status = .closed then none else some (connection.clientId, false)
  | _ => none

def tracked (clientId : String) (present : Bool) (history : List (String × Bool)) : Bool :=
  history.foldl (fun present entry => if entry.1 = clientId then entry.2 else present) present

theorem step_tracked (net : Network) (event : Event) (clientId : String) :
    ((net.step verifyPassword event).broker.sessions.get clientId).isSome =
      tracked clientId (net.broker.sessions.get clientId).isSome (net.registration verifyPassword event).toList := by
  cases event with
  | connect pkt =>
      rw [Network.step, Network.registration]
      split
      · rw [register_sessions, Assoc.get_insert]
        by_cases same : pkt.clientId = clientId
        · simp [tracked, same]
        · simp [tracked, same]
      · rfl
  | packet k packet =>
      refine on_connection_rule (fun after => (after.broker.sessions.get clientId).isSome = _) net k _ rfl ?_
      intro connection _
      split
      · rw [receive_broker, (process_client_packet_evolves net.broker connection.session packet).sessions]
        rfl
      · rfl
  | close k =>
      rw [Network.step, Network.onConnection, Network.registration]
      cases held : net.connections[k]? with
      | none => rfl
      | some connection =>
          rw [Option.bind_some]
          dsimp only
          split
          · rfl
          · have closed : (net.cleanup k connection).broker.sessions.get clientId =
                if connection.clientId = clientId then none else net.broker.sessions.get clientId :=
              close_connection_sessions net.broker connection.clientId clientId connection.session
            rw [closed]
            by_cases same : connection.clientId = clientId
            · simp [tracked, same]
            · simp [tracked, same]
  | panic k =>
      exact on_connection_rule (fun after => (after.broker.sessions.get clientId).isSome = _) net k _ rfl fun _ _ => rfl
  | writerEnds k =>
      exact on_connection_rule (fun after => (after.broker.sessions.get clientId).isSome = _) net k _ rfl fun _ _ => rfl
  | remotePublish topic payload qos retain =>
      have kept := (route_publish_keeps topic payload qos retain net.broker "bridge_client").1
      rw [Network.step, kept]
      rfl

end Run

theorem open_connection_counts (state : BrokerState) (pkt : Connect) :
    (state.openConnection pkt).1.metricsMessagesPublished = state.metricsMessagesPublished ∧
      (state.openConnection pkt).1.metricsSubscriptions = state.metricsSubscriptions := by
  simp only [BrokerState.openConnection, register_allocated]
  split <;> exact ⟨rfl, rfl⟩

theorem close_connection_counts (state : BrokerState) (clientId : String) (ref : SessionRef) :
    (state.closeConnection clientId ref).metricsMessagesPublished = state.metricsMessagesPublished ∧
      (state.closeConnection clientId ref).metricsSubscriptions = state.metricsSubscriptions := by
  have removed : (state.removeSession clientId).metricsMessagesPublished = state.metricsMessagesPublished ∧
      (state.removeSession clientId).metricsSubscriptions = state.metricsSubscriptions := by
    unfold BrokerState.removeSession
    split
    · exact ⟨rfl, rfl⟩
    · dsimp only
      split
      · exact ⟨rfl, rfl⟩
      · split <;> exact ⟨rfl, rfl⟩
  exact removed

theorem deliver_all_subscriptions (topic : String) (payload : Bytes) (qos : UInt8) (retain : Bool)
    (deliveries : List Delivery) (state : BrokerState) :
    (deliveries.foldl (BrokerState.deliver topic payload qos retain) state).metricsSubscriptions =
      state.metricsSubscriptions := by
  induction deliveries generalizing state with
  | nil => rfl
  | cons delivery rest ih =>
      rw [List.foldl_cons, ih]
      unfold BrokerState.deliver BrokerState.sendPublishToClient
      split
      · rfl
      · split
        · rfl
        · split <;> rfl

theorem route_publish_counts (state : BrokerState) (fromClient topic : String) (payload : Bytes) (qos : UInt8)
    (retain : Bool) :
    (state.routePublish fromClient topic payload qos retain).metricsMessagesPublished =
        state.metricsMessagesPublished + 1 ∧
      (state.routePublish fromClient topic payload qos retain).metricsSubscriptions = state.metricsSubscriptions := by
  rw [route_publish_delivers]
  exact ⟨rfl, deliver_all_subscriptions topic payload qos retain (state.deliveries topic) state⟩

theorem process_filters_subscriptions (state : BrokerState) (session : ClientSession)
    (subscriptionIdentifier : Option UInt32) (reasonCodes : List UInt8) (subs : List Subscription) :
    (state.processFilters session subscriptionIdentifier reasonCodes subs).1.metricsSubscriptions =
      state.metricsSubscriptions + UInt64.ofNat
        (subs.filter fun sub => state.auth.authorize (session.username.getD "") sub.topicFilter "read").length := by
  induction subs generalizing state reasonCodes with
  | nil => exact (UInt64.add_zero _).symm
  | cons sub rest ih =>
      rw [BrokerState.processFilters, BrokerState.processFilter]
      by_cases allowed : state.auth.authorize (session.username.getD "") sub.topicFilter "read" = true
      · rw [if_pos allowed, List.filter_cons_of_pos (by simpa using allowed), List.length_cons, ih, UInt64.ofNat_add]
        have counted : (state.subscribe session.clientId sub.topicFilter (sub.options &&& 0x03)
            subscriptionIdentifier).metricsSubscriptions = state.metricsSubscriptions + 1 := rfl
        rw [counted, (subscribe_keeps _ _ _ _ _).2.1, UInt64.add_assoc, UInt64.add_comm 1]
        rfl
      · rw [if_neg allowed, List.filter_cons_of_neg (by simpa using allowed)]
        exact ih _ _

theorem process_client_packet_subscriptions (state : BrokerState) (ref : SessionRef) (packet : Packet) :
    (processClientPacket state ref packet).1.metricsSubscriptions =
      state.metricsSubscriptions + UInt64.ofNat (acceptances state ref packet).length := by
  unfold processClientPacket acceptances
  cases state.heap[ref]? with
  | none => exact (UInt64.add_zero _).symm
  | some session =>
      cases packet with
      | publish pkt =>
          dsimp only
          rw [BrokerState.processPublish, List.length_nil]
          split
          · rw [reply_pub_ack_keeps (·.metricsSubscriptions) (fun _ _ _ => rfl), (route_publish_counts _ _ _ _ _ _).2]
            exact (UInt64.add_zero _).symm
          · rw [reply_pub_ack_keeps (·.metricsSubscriptions) (fun _ _ _ => rfl)]
            exact (UInt64.add_zero _).symm
      | subscribe pkt =>
          dsimp only
          rw [List.length_map]
          exact process_filters_subscriptions state session _ _ _
      | connect _ | connAck _ | pubAck _ | subAck _ | pingReq | pingResp | disconnect _ =>
          exact (UInt64.add_zero _).symm

section Counters

variable (verifyPassword : String → String → Bool)

theorem published_counts (net : Network) (event : Event) (publication : Publication)
    (found : net.publication event = some publication) :
    (net.step verifyPassword event).broker.metricsMessagesPublished = net.broker.metricsMessagesPublished + 1 := by
  have counted := (route_publish_counts net.broker publication.fromClient publication.topic publication.payload
    publication.qos publication.retain).1
  rcases publication_step verifyPassword net event publication found with same | ⟨ref, pkt, same⟩
  · rw [same]
    exact counted
  · rw [same]
    exact (reply_pub_ack_keeps (·.metricsMessagesPublished) (fun _ _ _ => rfl) _ _ _ _).trans counted

theorem silent_counts (net : Network) (event : Event) (silent : net.publication event = none) :
    (net.step verifyPassword event).broker.metricsMessagesPublished = net.broker.metricsMessagesPublished := by
  let same : Network → Prop := (·.broker.metricsMessagesPublished = net.broker.metricsMessagesPublished)
  cases event with
  | connect pkt =>
      rw [Network.step]
      split
      · exact (open_connection_counts net.broker pkt).1
      · rfl
  | remotePublish topic payload qos retain => cases silent
  | close k =>
      exact on_connection_rule same net k _ rfl fun connection _ =>
        (close_connection_counts net.broker connection.clientId connection.session).1
  | panic k => exact on_connection_rule same net k _ rfl fun _ _ => rfl
  | writerEnds k => exact on_connection_rule same net k _ rfl fun _ _ => rfl
  | packet k packet =>
      refine on_connection_rule same net k _ rfl ?_
      intro connection isOpen
      split
      · rename_i reading
        change (net.receive k connection packet).broker.metricsMessagesPublished = _
        rw [receive_broker, processClientPacket]
        cases held : net.broker.heap[connection.session]? with
        | none => rfl
        | some session =>
            cases packet with
            | publish pkt =>
                have refused : ¬net.broker.auth.authorize (session.username.getD "") pkt.topic "write" = true := by
                  intro authorized
                  simp [Network.publication, isOpen.1, reading, held, authorized] at silent
                dsimp only
                rw [BrokerState.processPublish, if_neg refused]
                exact reply_pub_ack_keeps (·.metricsMessagesPublished) (fun _ _ _ => rfl) _ _ _ _
            | subscribe pkt =>
                exact process_filters_keep (·.metricsMessagesPublished) (fun _ _ _ _ _ => rfl) session _ _ _ _
            | connect _ | connAck _ | pubAck _ | subAck _ | pingReq | pingResp | disconnect _ => rfl
      · rfl

theorem step_published (net : Network) (event : Event) :
    (net.step verifyPassword event).broker.metricsMessagesPublished =
      net.broker.metricsMessagesPublished + UInt64.ofNat (net.publication event).toList.length := by
  cases found : net.publication event with
  | none => exact (silent_counts verifyPassword net event found).trans (UInt64.add_zero _).symm
  | some publication => exact published_counts verifyPassword net event publication found

theorem step_subscriptions (net : Network) (event : Event) :
    ∃ more, (net.step verifyPassword event).accepted = net.accepted ++ more ∧
      (net.step verifyPassword event).broker.metricsSubscriptions =
        net.broker.metricsSubscriptions + UInt64.ofNat more.length := by
  let grows : Network → Prop := fun after => ∃ more, after.accepted = net.accepted ++ more ∧
    after.broker.metricsSubscriptions = net.broker.metricsSubscriptions + UInt64.ofNat more.length
  have same : ∀ after : Network, after.accepted = net.accepted →
      after.broker.metricsSubscriptions = net.broker.metricsSubscriptions → grows after :=
    fun after accepted counted => ⟨[], by rw [accepted, List.append_nil], counted.trans (UInt64.add_zero _).symm⟩
  cases event with
  | connect pkt =>
      rw [Network.step]
      split
      · exact same _ rfl (open_connection_counts net.broker pkt).2
      · exact same _ rfl rfl
  | remotePublish topic payload qos retain =>
      exact same _ rfl (route_publish_counts net.broker "bridge_client" topic payload qos retain).2
  | close k =>
      exact on_connection_rule grows net k _ (same _ rfl rfl) fun connection _ =>
        same _ rfl (close_connection_counts net.broker connection.clientId connection.session).2
  | panic k => exact on_connection_rule grows net k _ (same _ rfl rfl) fun _ _ => same _ rfl rfl
  | writerEnds k => exact on_connection_rule grows net k _ (same _ rfl rfl) fun _ _ => same _ rfl rfl
  | packet k packet =>
      refine on_connection_rule grows net k _ (same _ rfl rfl) fun connection _ => ?_
      split
      · refine ⟨acceptances net.broker connection.session packet, receive_accepted net k connection packet, ?_⟩
        rw [receive_broker]
        exact process_client_packet_subscriptions net.broker connection.session packet
      · exact same _ rfl rfl

theorem run_tracked (net : Network) (events : List Event) (clientId : String) :
    ((events.foldl (Network.step verifyPassword) net).broker.sessions.get clientId).isSome =
      tracked clientId (net.broker.sessions.get clientId).isSome
        (Run.outputs (Network.step verifyPassword) (fun net event => (net.registration verifyPassword event).toList)
          net events) := by
  induction events generalizing net with
  | nil => rfl
  | cons event rest ih =>
      rw [List.foldl_cons, ih, step_tracked, Run.outputs, tracked, tracked, tracked, List.foldl_append]

theorem run_published (net : Network) (events : List Event) :
    (events.foldl (Network.step verifyPassword) net).broker.metricsMessagesPublished =
      net.broker.metricsMessagesPublished + UInt64.ofNat
        (Run.outputs (Network.step verifyPassword) (fun net event => (net.publication event).toList)
          net events).length := by
  induction events generalizing net with
  | nil => exact (UInt64.add_zero _).symm
  | cons event rest ih =>
      rw [List.foldl_cons, ih, step_published, Run.outputs, List.length_append, UInt64.ofNat_add, UInt64.add_assoc]

theorem run_subscriptions (net : Network) (events : List Event) :
    ∃ more, (events.foldl (Network.step verifyPassword) net).accepted = net.accepted ++ more ∧
      (events.foldl (Network.step verifyPassword) net).broker.metricsSubscriptions =
        net.broker.metricsSubscriptions + UInt64.ofNat more.length := by
  induction events generalizing net with
  | nil => exact ⟨[], (List.append_nil _).symm, (UInt64.add_zero _).symm⟩
  | cons event rest ih =>
      obtain ⟨first, accepted, counted⟩ := step_subscriptions verifyPassword net event
      obtain ⟨later, all, total⟩ := ih (net.step verifyPassword event)
      refine ⟨first ++ later, ?_, ?_⟩
      · rw [List.foldl_cons, all, accepted, List.append_assoc]
      · rw [List.foldl_cons, total, counted, List.length_append, UInt64.ofNat_add, UInt64.add_assoc]

end Counters

theorem served_metrics_read (state : BrokerState) :
    scrape state.serveMetrics = some
        [("pipistrelle_connections_total", state.sessions.entries.length),
          ("pipistrelle_messages_published_total", state.metricsMessagesPublished.toNat),
          ("pipistrelle_subscriptions_total", state.metricsSubscriptions.toNat)] ∧
      ∀ received missing, missing ≠ [] → received ++ missing = state.serveMetrics → scrape received = none := by
  have bodyAscii := ascii_body state.sessions.entries.length state.metricsMessagesPublished state.metricsSubscriptions
  generalize isBody : metricsBody state.sessions.entries.length state.metricsMessagesPublished
    state.metricsSubscriptions = body at bodyAscii
  have length := (str_bytes_ascii body bodyAscii).2
  have text := (str_bytes_ascii (metricsResponse body) (ascii_response body bodyAscii)).1
  have serves : state.serveMetrics = strBytes (metricsResponse body) := by rw [BrokerState.serveMetrics, isBody]
  rw [serves]
  constructor
  · rw [scrape, text, http_body_response body length, Option.map_some, ← isBody, samples_body]
  · intro received missing more cut
    have chars : asciiText received ++ asciiText missing = (metricsResponse body).toList := by
      rw [← text, ← cut, asciiText, asciiText, asciiText, List.map_append]
    have nonempty : asciiText missing ≠ [] := fun nothing => more (List.map_eq_nil_iff.mp nothing)
    rw [scrape, http_body_partial body length _ _ nonempty chars]
    rfl

example : scrape (strBytes (metricsResponse (metricsBody 12 7 0))) =
    some [("pipistrelle_connections_total", 12), ("pipistrelle_messages_published_total", 7),
      ("pipistrelle_subscriptions_total", 0)] := by decide +kernel

-- The gauge counts the client ids that lead to a session, those restored included, and
-- the counters start again with the broker, at 2^64 as well.
theorem scrape_tells_run (verifyPassword : String → String → Bool) (auth : AuthConfig) (db : Database)
    (bridgeSender : Option (List (String × Bytes))) (events : List Event) :
    let net := Network.boot auth db bridgeSender
    let after := events.foldl (Network.step verifyPassword) net
    ∃ clientIds : List String, clientIds.Nodup ∧
      (∀ clientId, clientId ∈ clientIds ↔ tracked clientId (db.sessions.get clientId).isSome
        (Run.outputs (Network.step verifyPassword) (fun net event => (net.registration verifyPassword event).toList)
          net events) = true) ∧
      scrape after.broker.serveMetrics = some
        [("pipistrelle_connections_total", clientIds.length),
          ("pipistrelle_messages_published_total", (Run.outputs (Network.step verifyPassword)
            (fun net event => (net.publication event).toList) net events).length % 2 ^ 64),
          ("pipistrelle_subscriptions_total", (after.accepted.length - net.accepted.length) % 2 ^ 64)] ∧
      ∀ received missing, missing ≠ [] → received ++ missing = after.broker.serveMetrics → scrape received = none := by
  intro net after
  have published : after.broker.metricsMessagesPublished = UInt64.ofNat (Run.outputs (Network.step verifyPassword)
      (fun net event => (net.publication event).toList) net events).length := by
    have start : net.broker.metricsMessagesPublished = 0 :=
      boot_keeps (·.metricsMessagesPublished) (fun _ _ _ _ => rfl) auth db
    rw [run_published verifyPassword net events, start, UInt64.zero_add]
  have subscriptions : after.broker.metricsSubscriptions =
      UInt64.ofNat (after.accepted.length - net.accepted.length) := by
    have start : net.broker.metricsSubscriptions = 0 :=
      boot_keeps (·.metricsSubscriptions) (fun _ _ _ _ => rfl) auth db
    obtain ⟨more, accepted, counted⟩ := run_subscriptions verifyPassword net events
    have grown : after.accepted.length - net.accepted.length = more.length := by
      rw [accepted, List.length_append, Nat.add_sub_cancel_left]
    rw [grown, counted, start, UInt64.zero_add]
  have read := served_metrics_read after.broker
  rw [published, subscriptions, UInt64.toNat_ofNat', UInt64.toNat_ofNat'] at read
  refine ⟨after.broker.sessions.entries.map Prod.fst, after.broker.sessions.distinct, ?_, ?_, read.2⟩
  · intro clientId
    have restored : (net.broker.sessions.get clientId).isSome = (db.sessions.get clientId).isSome :=
      Bool.eq_iff_iff.mpr (boot_sessions auth db clientId)
    rw [← restored, ← run_tracked verifyPassword net events clientId, Option.isSome_iff_exists, List.mem_map]
    constructor
    · rintro ⟨⟨_, ref⟩, member, rfl⟩
      exact ⟨ref, (after.broker.sessions.mem_entries_iff _ _).mp member⟩
    · rintro ⟨ref, get⟩
      exact ⟨(clientId, ref), (after.broker.sessions.mem_entries_iff _ _).mpr get, rfl⟩
  · rw [List.length_map]
    exact read.1

end Pipistrelle.Broker
