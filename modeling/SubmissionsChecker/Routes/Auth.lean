import Mathlib.Data.List.Basic
import SubmissionsChecker.Db.Models
import SubmissionsChecker.Library.Table

/-! `core/security.py`: passwords and session tokens. Times are in microseconds. -/

namespace SubmissionsChecker

inductive UserRole
  | student | teacher | admin
  deriving DecidableEq, Repr

/-- `JWT_EXPIRY_HOURS`. -/
def jwtExpiry : ℕ := 8 * 3600 * 1000000

def maxPasswordBytes : ℕ := 72

/-- `int(t.timestamp())`. -/
def timestamp (t : ℕ) : ℕ := t / 1000000

def passwordTooLong (plain : String) : Bool := decide (maxPasswordBytes < plain.utf8ByteSize)

/-- `verify_password`, with the check of the hashing library. -/
def verifyPassword (checkpw : String → String → Bool) (plain hashed : String) : Bool :=
  !passwordTooLong plain && checkpw plain hashed

/-- The claims of a session token; `iat` and `exp` are whole seconds. -/
structure AccessToken where
  sub : ℕ
  username : String
  role : UserRole
  iat : Option ℕ
  exp : ℕ
  deriving DecidableEq, Repr

/-- `create_access_token`; the token library cuts `exp` to a second too. -/
def createAccessToken (userId : ℕ) (username : String) (role : UserRole) (issuedAt : ℕ) : AccessToken where
  sub := userId
  username
  role
  iat := some (timestamp issuedAt)
  exp := timestamp (issuedAt + jwtExpiry)

/-- `decode_access_token`: neither expired nor from the future. -/
def AccessToken.decodes (token : AccessToken) (now : ℕ) : Bool :=
  decide (now < token.exp * 1000000) && token.iat.all fun iat => decide (iat * 1000000 ≤ now)

/-- `issued_before_password_change`: both sides in whole seconds. -/
def AccessToken.issuedBeforePasswordChange (token : AccessToken) (changedAt : Option ℕ) : Bool :=
  match changedAt, token.iat with
  | some changed, some iat => decide (iat < timestamp changed)
  | _, _ => false

theorem timestamp_mul_le (t : ℕ) : timestamp t * 1000000 ≤ t := Nat.div_mul_le_self t 1000000

theorem createAccessToken_decodes (userId : ℕ) (username : String) (role : UserRole) {issuedAt now : ℕ}
    (h : issuedAt ≤ now) : (createAccessToken userId username role issuedAt).decodes now =
      decide (now < (createAccessToken userId username role issuedAt).exp * 1000000) := by
  have hpast : timestamp issuedAt * 1000000 ≤ now := Nat.le_trans (timestamp_mul_le issuedAt) h
  have hiat : (createAccessToken userId username role issuedAt).iat = some (timestamp issuedAt) := rfl
  rw [AccessToken.decodes, hiat, Option.all_some, decide_eq_true hpast, Bool.and_true]

/-- A token issued in the second of the change is not refused. -/
theorem createAccessToken_issuedBefore (userId : ℕ) (username : String) (role : UserRole) (issuedAt changed : ℕ) :
    (createAccessToken userId username role issuedAt).issuedBeforePasswordChange (some changed) =
      decide (timestamp issuedAt < timestamp changed) := rfl

/-! ## Routes

`api/routes/auth.py` for one account: logins, reset links and the two ways of setting a password.
A page that refuses the form is an error here. -/

/-- A row of `password_reset_tokens`; `token` is only on rows from before tokens were hashed. -/
structure PasswordResetToken where
  tokenHash : Option String
  token : Option String := none
  expiresAt : ℕ
  used : Bool := false
  deriving DecidableEq, Repr

/-- `PasswordResetToken.create`, which lives two hours. -/
def PasswordResetToken.create (sha256 : String → String) (token : String) (now : ℕ) : PasswordResetToken where
  tokenHash := some (sha256 token)
  expiresAt := now + 2 * 3600 * 1000000

def PasswordResetToken.isValid (row : PasswordResetToken) (now : ℕ) : Bool := !row.used && decide (now < row.expiresAt)

/-- An account and its reset tokens. The last four fields are no columns: the session tokens and the
links handed out so far, and how many of each when the password was last set. -/
structure Account where
  id : ℕ
  username : String
  role : UserRole
  passwordHash : String
  isActive : Bool := true
  passwordChangedAt : Option ℕ := none
  resetTokens : List PasswordResetToken := []
  now : ℕ := 0
  sessions : List AccessToken := []
  links : List String := []
  oldSessions : ℕ := 0
  oldLinks : ℕ := 0

/-- The requests of an account. `hashed` is what the hashing library returned, `blocked` what the rate
limiters said, and `username` of a reset request is stripped. -/
inductive AuthOp
  | login (username password : String) (blocked : Bool)
  | forgotPassword (username token : String) (blocked : Bool)
  | resetPassword (token newPassword confirmPassword hashed : String)
  | changePassword (session : AccessToken) (currentPassword newPassword confirmPassword hashed : String)
  | tick (microseconds : ℕ)

namespace Account

section

variable (checkpw : String → String → Bool) (sha256 : String → String) (acc : Account)

/-- `_get_current_user`. -/
def currentUser (token : AccessToken) : Except Raised Unit :=
  if !token.decodes acc.now then .error (.http 401 "Invalid or expired token")
  else if token.sub ≠ acc.id then .error (.http 401 "Invalid or expired token")
  else if !acc.isActive then .error (.http 401 "User inactive")
  else if token.issuedBeforePasswordChange acc.passwordChangedAt then
    .error (.http 401 "Session ended by password change")
  else .ok ()

/-- A session token is accepted. -/
def accepts (token : AccessToken) : Bool := (acc.currentUser token).isOk

def login (username password : String) (blocked : Bool) : Except Raised Account :=
  if blocked then .error (.http 429 "error_too_many_attempts")
  else if !(decide (username = acc.username) && acc.isActive && verifyPassword checkpw password acc.passwordHash) then
    .error (.http 401 "Invalid username or password")
  else .ok { acc with sessions := acc.sessions ++ [createAccessToken acc.id acc.username acc.role acc.now] }

/-- `forgot_password`; the hashes are unique, and no row is added for another username. -/
def forgotPassword (username token : String) (blocked : Bool) : Except Raised Account :=
  if blocked then .error (.http 429 "error_too_many_attempts")
  else if !(decide (username = acc.username) && acc.isActive) then .ok acc
  else if acc.resetTokens.any (·.tokenHash == some (sha256 token)) then .error (.runtime "IntegrityError")
  else .ok { acc with
    resetTokens := acc.resetTokens ++ [.create sha256 token acc.now]
    links := acc.links ++ [token] }

/-- `_find_reset_token`. -/
def findResetToken (token : String) : Except Raised (Option ℕ) :=
  match Table.idsWhere (fun row => row.tokenHash == some (sha256 token) || row.token == some token) acc.resetTokens with
  | [] => .ok none
  | [k] => .ok (some k)
  | _ => .error (.runtime "MultipleResultsFound")

/-- The row of the link, when there is one and it is still good. -/
def validResetToken (token : String) : Except Raised ℕ :=
  match acc.findResetToken sha256 token with
  | .error e => .error e
  | .ok none => .error (.http 400 "")
  | .ok (some k) =>
    if (acc.resetTokens[k]?).any (·.isValid acc.now) then .ok k else .error (.http 400 "")

/-- A reset link is accepted. -/
def acceptsLink (token : String) : Bool := (acc.validResetToken sha256 token).isOk

/-- The checks of `reset_password`, up to the row of the link. -/
def checkReset (token newPassword confirmPassword : String) : Except Raised ℕ :=
  if newPassword ≠ confirmPassword then .error (.http 422 "Passwords do not match.")
  else if newPassword.length < 8 || passwordTooLong newPassword then
    .error (.http 422 s!"Password must be between 8 characters and {maxPasswordBytes} bytes.")
  else acc.validResetToken sha256 token

/-- The password is set now. -/
def setPassword (hashed : String) : Account :=
  { acc with
    passwordHash := hashed
    passwordChangedAt := some acc.now
    oldSessions := acc.sessions.length
    oldLinks := acc.links.length }

def resetPassword (token newPassword confirmPassword hashed : String) : Except Raised Account := do
  let k ← acc.checkReset sha256 token newPassword confirmPassword
  .ok { acc.setPassword hashed with resetTokens := acc.resetTokens.modify k ({ · with used := true }) }

/-- The checks of `change_password`. -/
def checkChange (session : AccessToken) (currentPassword newPassword confirmPassword : String) : Except Raised Unit := do
  acc.currentUser session
  if !verifyPassword checkpw currentPassword acc.passwordHash then .error (.http 422 "Current password is wrong.")
  else if newPassword ≠ confirmPassword then .error (.http 422 "Passwords do not match.")
  else if newPassword.length < 8 then .error (.http 422 "Password must be at least 8 characters.")
  else if passwordTooLong newPassword then .error (.http 422 s!"Password must be at most {maxPasswordBytes} bytes.")
  else if newPassword = currentPassword then .error (.http 422 "Choose a different password.")
  else .ok ()

/-- `change_password`: the session goes on with a token of the same instant. -/
def changePassword (session : AccessToken) (currentPassword newPassword confirmPassword hashed : String) :
    Except Raised Account := do
  acc.checkChange checkpw session currentPassword newPassword confirmPassword
  .ok { acc.setPassword hashed with
    sessions := acc.sessions ++ [createAccessToken acc.id acc.username acc.role acc.now] }

def request : AuthOp → Except Raised Account
  | .login username password blocked => acc.login checkpw username password blocked
  | .forgotPassword username token blocked => acc.forgotPassword sha256 username token blocked
  | .resetPassword token newPassword confirmPassword hashed =>
    acc.resetPassword sha256 token newPassword confirmPassword hashed
  | .changePassword session currentPassword newPassword confirmPassword hashed =>
    acc.changePassword checkpw session currentPassword newPassword confirmPassword hashed
  | .tick microseconds => .ok { acc with now := acc.now + microseconds }

def step (op : AuthOp) : Account :=
  match acc.request checkpw sha256 op with
  | .ok acc' => acc'
  | .error _ => acc

end

end Account

end SubmissionsChecker
