import Pipistrelle.Auth.AuthConfig

set_option autoImplicit false

/- AuthConfig::load in src/config.rs. The environment and the file system are what the
   process finds at its start; serde_json is outside of the repository, and what it makes
   of a text is a parameter. -/
namespace Pipistrelle.Auth

structure CredentialsConfig where
  users : List UserConfig
deriving DecidableEq, Repr

-- A path for which Path::exists is false, as it is also where the file is there and its
-- metadata cannot be read; one that File::open or read_to_string fails on; or a text.
inductive CredentialsFile where
  | missing
  | unopenable
  | unreadable
  | content (text : String)
deriving DecidableEq, Repr

-- std::env::var, with none for its error, and the files.
structure Environment where
  var : String → Option String
  file : String → CredentialsFile

-- char::is_whitespace: the White_Space property of Unicode.
def isWhitespace (c : Char) : Bool :=
  let n := c.toNat
  (9 ≤ n && n ≤ 13) || [0x20, 0x85, 0xA0, 0x1680, 0x2028, 0x2029, 0x202F, 0x205F, 0x3000].contains n ||
    (0x2000 ≤ n && n ≤ 0x200A)

def trim (value : List Char) : List Char := ((value.dropWhile isWhitespace).reverse.dropWhile isWhitespace).reverse

def toAsciiLowercase (c : Char) : Char := if 'A' ≤ c ∧ c ≤ 'Z' then Char.ofNat (c.toNat + 32) else c

def Environment.anonymousAccessEnabled (self : Environment) : Bool :=
  match self.var "PIPISTRELLE_ALLOW_ANONYMOUS" with
  | none => false
  | some value => ["1", "true", "yes", "on"].contains (String.ofList ((trim value.toList).map toAsciiLowercase))

def Environment.credentials (self : Environment) : CredentialsFile :=
  self.file ((self.var "PIPISTRELLE_CREDENTIALS_PATH").getD "credentials.json")

def AuthConfig.closed : AuthConfig := ⟨some {}⟩

def AuthConfig.anonymous : AuthConfig := ⟨none⟩

def usersByName (users : List UserConfig) : Assoc String UserConfig :=
  users.foldl (fun map user => map.insert user.username user) {}

def AuthConfig.load (fromStr : String → Option CredentialsConfig) (environment : Environment) : AuthConfig :=
  match environment.credentials with
  | .missing => if environment.anonymousAccessEnabled then .anonymous else .closed
  | .unopenable => .closed
  | .unreadable => .closed
  | .content text =>
      match fromStr text with
      | some config => ⟨some (usersByName config.users)⟩
      | none => .closed

def Environment.Anonymous (self : Environment) : Prop := self.credentials = .missing ∧ self.anonymousAccessEnabled = true

def Environment.users (fromStr : String → Option CredentialsConfig) (self : Environment) : List UserConfig :=
  match self.credentials with
  | .content text => ((fromStr text).map (·.users)).getD []
  | _ => []

-- Of several users of one name the last one counts.
def lastNamed (users : List UserConfig) (username : String) : Option UserConfig :=
  users.reverse.find? fun user => user.username = username

theorem users_by_name (users : List UserConfig) (username : String) :
    (usersByName users).get username = lastNamed users username := by
  have starts : ∀ map : Assoc String UserConfig, (users.foldl (fun map user => map.insert user.username user) map).get username =
      (lastNamed users username).or (map.get username) := by
    intro map
    induction users generalizing map with
    | nil => rfl
    | cons user rest ih =>
        rw [List.foldl_cons, ih, Assoc.get_insert, lastNamed, lastNamed, List.reverse_cons, List.find?_append,
          Option.or_assoc]
        by_cases named : user.username = username
        · simp [named]
        · simp [named]
  exact (starts {}).trans Option.or_none

theorem load_users (fromStr : String → Option CredentialsConfig) (environment : Environment) :
    (environment.Anonymous ∧ AuthConfig.load fromStr environment = ⟨none⟩) ∨
      (¬environment.Anonymous ∧ AuthConfig.load fromStr environment = ⟨some (usersByName (environment.users fromStr))⟩) := by
  unfold AuthConfig.load Environment.Anonymous Environment.users
  cases environment.credentials with
  | missing =>
      by_cases enabled : environment.anonymousAccessEnabled = true
      · exact .inl ⟨⟨rfl, enabled⟩, if_pos enabled⟩
      · exact .inr ⟨fun both => enabled both.2, if_neg enabled⟩
  | unopenable | unreadable => exact .inr ⟨fun both => (by cases both.1), rfl⟩
  | content text =>
      refine .inr ⟨fun both => (by cases both.1), ?_⟩
      dsimp only
      cases fromStr text with
      | none => rfl
      | some config => rfl

structure Listed (verifyPassword : String → String → Bool) (users : List UserConfig) (username : String)
    (user : UserConfig) : Prop where
  entry : lastNamed users username = some user
  password : ∃ password, verifyPassword password user.passwordHash = true

theorem authenticate_listed (verifyPassword : String → String → Bool) (users : List UserConfig) (username password : String)
    (accepted : AuthConfig.authenticate verifyPassword ⟨some (usersByName users)⟩ username password = true) :
    ∃ user, lastNamed users username = some user ∧ verifyPassword password user.passwordHash = true := by
  rw [AuthConfig.authenticate] at accepted
  dsimp only at accepted
  rw [users_by_name] at accepted
  cases found : lastNamed users username with
  | none => simp [found] at accepted
  | some user =>
      rw [found] at accepted
      exact ⟨user, rfl, accepted⟩

theorem authorize_rule (users : List UserConfig) (username topic action : String)
    (allowed : AuthConfig.authorize ⟨some (usersByName users)⟩ username topic action = true) :
    ∃ user, lastNamed users username = some user ∧ ∃ rule ∈ user.acl, actionAllowed rule.access action = true ∧
      topicMatchesAclFilter topic rule.topic = true := by
  rw [AuthConfig.authorize] at allowed
  dsimp only at allowed
  rw [users_by_name] at allowed
  cases found : lastNamed users username with
  | none => simp [found] at allowed
  | some user =>
      rw [found] at allowed
      obtain ⟨rule, member, both⟩ := List.any_eq_true.mp allowed
      exact ⟨user, rfl, rule, member, Bool.and_eq_true_iff.mp both⟩

end Pipistrelle.Auth
