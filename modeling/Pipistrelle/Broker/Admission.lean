import Pipistrelle.Auth.Credentials
import Pipistrelle.Broker.Bridge
import Pipistrelle.Broker.GrantedQos
import Pipistrelle.Broker.Outbox

set_option autoImplicit false

/- A broker on the credentials that it loads at its start. Whatever its clients send, the
   file decides who connects and what is published and subscribed. -/
namespace Pipistrelle.Broker

open Codec Router Auth

def Network.Vetted (verifyPassword : String → String → Bool) (users : List UserConfig) (self : Network) : Prop :=
  ∀ k connection, self.Open k connection → ∃ identity, self.broker.identities[connection.session]? = some identity ∧
    ∃ user, Listed verifyPassword users (identity.username.getD "") user

def Network.Permits (verifyPassword : String → String → Bool) (users : List UserConfig) (self : Network)
    (connection : Connection) (topic action : String) : Prop :=
  ∃ session, self.broker.heap[connection.session]? = some session ∧
    ∃ user, Listed verifyPassword users (session.username.getD "") user ∧
      ∃ rule ∈ user.acl, actionAllowed rule.access action = true ∧ topicMatchesAclFilter topic rule.topic = true

structure Network.Lawful (verifyPassword : String → String → Bool) (users : List UserConfig) (self : Network)
    (event : Event) : Prop where
  connects : ∀ pkt, event = .connect pkt → authenticated verifyPassword self.broker.auth pkt = true →
    ∃ user, lastNamed users (pkt.username.getD "") = some user ∧
      verifyPassword ((pkt.password.map fromUtf8Lossy).getD "") user.passwordHash = true
  publishes : ∀ publication, self.localPublish event = some publication → ∃ k connection, self.Open k connection ∧
    self.Permits verifyPassword users connection publication.topic "write"
  subscribes : ∀ k packet connection, event = .packet k packet → self.Open k connection →
    ∀ acceptance ∈ acceptances self.broker connection.session packet,
      self.Permits verifyPassword users connection acceptance.topicFilter "read"

theorem authenticated_listed (verifyPassword : String → String → Bool) (users : List UserConfig) (pkt : Connect)
    (accepted : authenticated verifyPassword ⟨some (usersByName users)⟩ pkt = true) :
    ∃ user, lastNamed users (pkt.username.getD "") = some user ∧
      verifyPassword ((pkt.password.map fromUtf8Lossy).getD "") user.passwordHash = true := by
  unfold authenticated at accepted
  split at accepted
  · rename_i username password givenName givenPassword
    rw [givenName, givenPassword]
    exact authenticate_listed verifyPassword users username password accepted
  · rename_i givenName givenPassword
    rw [givenName, givenPassword]
    exact authenticate_listed verifyPassword users "" "" accepted
  · cases accepted

theorem identity_at (state : BrokerState) (ref : SessionRef) (session : ClientSession) (held : state.heap[ref]? = some session) :
    state.identities[ref]? = some session.identity := by
  rw [BrokerState.identities, List.getElem?_map, held]
  rfl

section Run

variable (verifyPassword : String → String → Bool)

theorem step_identities (net : Network) (event : Event) (noConnect : ∀ pkt, event ≠ .connect pkt) :
    (net.step verifyPassword event).broker.identities = net.broker.identities := by
  cases event with
  | connect pkt => exact absurd rfl (noConnect pkt)
  | packet k packet =>
      refine on_connection_rule (·.broker.identities = net.broker.identities) net k _ rfl ?_
      intro connection _
      split
      · rw [receive_broker]
        exact evolves_identities _ _ _ (process_client_packet_evolves net.broker connection.session packet)
      · rfl
  | close k =>
      exact on_connection_rule (·.broker.identities = net.broker.identities) net k _ rfl fun connection _ =>
        close_connection_identities net.broker connection.clientId connection.session
  | panic k => exact on_connection_rule (·.broker.identities = net.broker.identities) net k _ rfl fun _ _ => rfl
  | writerEnds k =>
      refine on_connection_rule (·.broker.identities = net.broker.identities) net k _ rfl ?_
      intro connection _
      refine evolves_identities (fun _ _ => True) _ _ (modify_session_evolves _ _ _ _ ?_)
      exact fun session _ => grows_same _ _ _ rfl rfl
  | remotePublish topic payload qos retain =>
      exact evolves_identities _ _ _ (route_publish_evolves net.broker "bridge_client" topic payload qos retain)

variable (users : List UserConfig)

theorem step_vetted (net : Network) (event : Event) (loaded : net.broker.auth = ⟨some (usersByName users)⟩)
    (vetted : net.Vetted verifyPassword users) : (net.step verifyPassword event).Vetted verifyPassword users := by
  by_cases connecting : ∃ pkt, event = .connect pkt
  · obtain ⟨pkt, rfl⟩ := connecting
    rw [Network.step]
    split
    · rename_i accepted
      rw [loaded] at accepted
      intro k connection isOpen
      have identities : (net.register pkt).broker.identities = net.broker.identities ++ [(newSession pkt).identity] :=
        open_connection_identities net.broker pkt
      rw [identities]
      rcases register_open net pkt k connection isOpen with ⟨_, wasOpen⟩ | ⟨_, _, sameSession⟩
      · obtain ⟨identity, found, listed⟩ := vetted k connection wasOpen
        exact ⟨identity, held_append _ _ _ _ found, listed⟩
      · have size : net.broker.identities.length = net.broker.heap.length := List.length_map _
        rw [sameSession, ← size]
        obtain ⟨user, entry, verified⟩ := authenticated_listed verifyPassword users pkt accepted
        exact ⟨_, List.getElem?_concat_length, user, entry, _, verified⟩
    · exact vetted
  · have noConnect : ∀ pkt, event ≠ .connect pkt := fun pkt same => connecting ⟨pkt, same⟩
    intro k later isOpen
    obtain ⟨earlier, wasOpen, _, sameSession, _⟩ := (step_unmoved verifyPassword net event noConnect).connections k later isOpen
    rw [step_identities verifyPassword net event noConnect, sameSession]
    exact vetted k earlier wasOpen

-- A check that passed, and the password from the start of the connection.
theorem vetted_permits (net : Network) (loaded : net.broker.auth = ⟨some (usersByName users)⟩)
    (vetted : net.Vetted verifyPassword users) (k : Nat) (connection : Connection) (isOpen : net.Open k connection)
    (session : ClientSession) (held : net.broker.heap[connection.session]? = some session) (topic action : String)
    (allowed : net.broker.auth.authorize (session.username.getD "") topic action = true) :
    net.Permits verifyPassword users connection topic action := by
  rw [loaded] at allowed
  obtain ⟨user, named, rule⟩ := authorize_rule users _ topic action allowed
  obtain ⟨identity, found, known, listed⟩ := vetted k connection isOpen
  rw [identity_at net.broker _ session held] at found
  cases found
  have same : some known = some user := listed.entry.symm.trans named
  cases same
  exact ⟨session, held, user, listed, rule⟩

theorem vetted_lawful (net : Network) (event : Event) (loaded : net.broker.auth = ⟨some (usersByName users)⟩)
    (vetted : net.Vetted verifyPassword users) : net.Lawful verifyPassword users event := by
  refine ⟨fun pkt _ accepted => ?_, fun publication found => ?_, fun k packet connection _ isOpen acceptance member => ?_⟩
  · rw [loaded] at accepted
    exact authenticated_listed verifyPassword users pkt accepted
  · cases event with
    | packet k packet =>
        cases packet with
        | publish pkt =>
            obtain ⟨connection, held, reading⟩ := Option.bind_eq_some_iff.mp found
            split at reading
            · rename_i isReading
              obtain ⟨session, owned, authorized⟩ := Option.bind_eq_some_iff.mp reading
              split at authorized
              · rename_i allowed
                cases authorized
                have isOpen : net.Open k connection := ⟨held, by rw [isReading]; decide⟩
                exact ⟨k, connection, isOpen,
                  vetted_permits verifyPassword users net loaded vetted k connection isOpen session owned _ _ allowed⟩
              · cases authorized
            · cases reading
        | connect _ | connAck _ | pubAck _ | subscribe _ | subAck _ | pingReq | pingResp | disconnect _ => cases found
    | connect _ | close _ | panic _ | writerEnds _ | remotePublish _ _ _ _ => cases found
  · unfold acceptances at member
    split at member
    · rename_i session pkt held _
      obtain ⟨sub, accepted, rfl⟩ := List.mem_map.mp member
      exact vetted_permits verifyPassword users net loaded vetted k connection isOpen session held _ _
        (List.mem_filter.mp accepted).2
    · cases member

end Run

theorem credentials_enforced (verifyPassword : String → String → Bool) (fromStr : String → Option CredentialsConfig)
    (environment : Environment) (named : ¬environment.Anonymous) (db : Database)
    (bridgeSender : Option (List (String × Bytes))) (events : List Event) :
    Run.Throughout (Network.step verifyPassword) (Network.Lawful verifyPassword (environment.users fromStr))
      (Network.boot (AuthConfig.load fromStr environment) db bridgeSender) events := by
  have loads : AuthConfig.load fromStr environment = ⟨some (usersByName (environment.users fromStr))⟩ :=
    (load_users fromStr environment).elim (fun anyone => absurd anyone.1 named) And.right
  rw [loads]
  refine Run.throughout_of_kept _ (fun net => net.broker.auth = ⟨some (usersByName (environment.users fromStr))⟩ ∧
      net.Vetted verifyPassword (environment.users fromStr)) _ ?_ ?_ _ events ⟨boot_auth _ db, ?_⟩
  · intro net event both
    exact ⟨(step_auth verifyPassword net event).trans both.1, step_vetted verifyPassword _ net event both.1 both.2⟩
  · exact fun net event both => vetted_lawful verifyPassword _ net event both.1 both.2
  · intro k connection isOpen
    have nobody : ([] : List Connection)[k]? = some connection := isOpen.1
    cases nobody

def adminHash : String :=
  "$argon2id$v=19$m=65536,t=3,p=1$ZDhmMWVlOGMxMTZlOTAwYzJhZGIzMDBlYWJjZWJlZmY$r+HP8qLT3CpBzxqniOJShpDgZ/O95L8TaQGBQKB573o"

def adminVerifies (password hash : String) : Bool := password == "admin123" && hash == adminHash

def adminFile : String :=
  "\x7b\"users\":[\x7b\"username\":\"admin\",\"password_hash\":\"" ++ adminHash ++
    "\",\"acl\":[\x7b\"topic\":\"sensor/#\",\"access\":\"write\"\x7d]\x7d]\x7d"

def adminConfig : CredentialsConfig := ⟨[⟨"admin", adminHash, [⟨"sensor/#", "write"⟩]⟩]⟩

def adminHost : Environment := ⟨fun _ => none, fun path => if path = "credentials.json" then .content adminFile else .missing⟩

def adminAndStranger : List Event :=
  [.connect ⟨"c", 60, true, some "admin", some (strBytes "admin123"), {}⟩,
    .packet 0 (.publish ⟨false, 0, false, "sensor/a", none, {}, [1]⟩), .connect ⟨"d", 60, true, none, none, {}⟩,
    .packet 1 (.publish ⟨false, 0, false, "sensor/a", none, {}, [2]⟩)]

theorem admin_and_stranger_lawful :
    Run.Throughout (Network.step adminVerifies)
      (Network.Lawful adminVerifies (adminHost.users fun text => if text = adminFile then some adminConfig else none))
      (Network.boot (AuthConfig.load (fun text => if text = adminFile then some adminConfig else none) adminHost) {} none)
      adminAndStranger :=
  credentials_enforced adminVerifies (fun text => if text = adminFile then some adminConfig else none) adminHost
    (fun both => CredentialsFile.noConfusion both.1) {} none adminAndStranger

end Pipistrelle.Broker
