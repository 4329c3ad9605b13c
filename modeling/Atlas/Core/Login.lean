import Atlas.Core.Database

/-!
# Logins of administrators

A `Login` is a row of statements on the table of records, between which other logins run: a cleanup
and a first look at the failures outside of any transaction, the verification of the password, and a
transaction that takes the advisory locks of the username and of the IP, looks at the failures again
and counts a failure or clears them. What a transaction changes appears at its commit, and its locks
are held until then. Whether a statement fails comes with the step, and so does what the
verification says.
-/

namespace Atlas.Core.Admin

structure LoginFailureRecord where
  count : ℕ
  resetAt : Time
  deriving DecidableEq, Repr

def loginWindow : Time := 15 * 60 * 1000000

def loginMaxFails : ℕ := 8

/-- The IDs of the records that a login is counted in. -/
def failureKeys (username ip : String) : List String :=
  if ip = "" then ["login_fail:user:" ++ username]
  else ["login_fail:user:" ++ username, "login_fail:ip:" ++ ip]

def Expired (record : Option LoginFailureRecord) (now : Time) : Prop :=
  ∃ r, record = some r ∧ r.resetAt ≤ now

def Throttled (record : Option LoginFailureRecord) (now : Time) : Prop :=
  ∃ r, record = some r ∧ loginMaxFails ≤ r.count ∧ now < r.resetAt

instance (record : Option LoginFailureRecord) (now : Time) : Decidable (Expired record now) :=
  match record with
  | none => isFalse (by rintro ⟨r, hr, -⟩; cases hr)
  | some r => decidable_of_iff (r.resetAt ≤ now) (by simp [Expired])

instance (record : Option LoginFailureRecord) (now : Time) : Decidable (Throttled record now) :=
  match record with
  | none => isFalse (by rintro ⟨r, hr, -⟩; cases hr)
  | some r => decidable_of_iff (loginMaxFails ≤ r.count ∧ now < r.resetAt) (by simp [Throttled])

/-- The row `upsertLoginFailure` leaves. -/
def upsertLoginFailure (record : Option LoginFailureRecord) (now : Time) : LoginFailureRecord :=
  match record with
  | none => ⟨1, now + loginWindow⟩
  | some r =>
    if r.resetAt ≤ now then ⟨1, now + loginWindow⟩ else ⟨r.count + 1, r.resetAt⟩

inductive LoginResult
  | session
  | invalidCredentials
  | tooManyAttempts
  | failed
  deriving DecidableEq, Repr

/-- What a transaction has changed: the rows it leaves. -/
abbrev Changes : Type := List (String × Option LoginFailureRecord)

/-- How far a login is: what it does next, with what it has yet to look at, lock or count. -/
inductive LoginStage
  | cleaning
  | checking (keys : List String)
  | verifying
  | locking (passed : Bool) (held wanted : List ℤ)
  | lockedChecking (passed : Bool) (keys : List String)
  | recording (keys : List String) (changes : Changes)
  | clearing
  | committing (passed : Bool) (changes : Changes)
  | storing
  | answered (result : LoginResult)
  deriving DecidableEq, Repr

/-- A call of `Login`, its username and IP without the space around them. -/
structure LoginCall where
  username : String
  password : String
  ip : String
  now : Time
  stage : LoginStage
  deriving DecidableEq, Repr

namespace LoginCall

def keys (c : LoginCall) : List String := failureKeys c.username c.ip

def changes (c : LoginCall) : Changes :=
  match c.stage with
  | .recording _ changes | .committing _ changes => changes
  | _ => []

section Locks

-- The advisory lock of a name: the first bytes of its hash.
variable (loginAdmissionLockID : String → ℤ)

/-- The locks `lockLoginAdmission` takes, in their order. -/
def locks (c : LoginCall) : List ℤ :=
  let user := loginAdmissionLockID ("user:" ++ c.username)
  let ip := loginAdmissionLockID ("ip:" ++ c.ip)
  if c.ip = "" ∨ ip = user then [user]
  else if ip < user then [ip, user]
  else [user, ip]

/-- The locks it holds. -/
def held (c : LoginCall) : List ℤ :=
  match c.stage with
  | .locking _ held _ => held
  | .lockedChecking _ _ | .recording _ _ | .clearing | .committing _ _ =>
    c.locks loginAdmissionLockID
  | _ => []

end Locks

end LoginCall

/-- What has happened to the records. A rejection is an answer that the credentials are invalid. -/
inductive LoginEvent
  | cleaned (now : Time)
  | rejected (call : ℕ) (keys : List String) (now : Time)
  | admitted (call : ℕ) (keys : List String) (now : Time)
  deriving DecidableEq, Repr

def LoginEvent.now : LoginEvent → Time
  | .cleaned now | .rejected _ _ now | .admitted _ _ now => now

def LoginEvent.Rejects (key : String) : LoginEvent → Prop
  | .rejected _ keys _ => key ∈ keys
  | _ => False

def LoginEvent.Admits (key : String) : LoginEvent → Prop
  | .admitted _ keys _ => key ∈ keys
  | _ => False

instance (key : String) (e : LoginEvent) : Decidable (e.Rejects key) := by
  cases e <;> unfold LoginEvent.Rejects <;> infer_instance

/-- The failure records, the calls in the order they began, and, the latest first, what happened. -/
structure LoginSystem where
  records : String → Option LoginFailureRecord
  calls : List LoginCall
  log : List LoginEvent

/-- The rows with what a transaction has changed. -/
def Changes.apply (changes : Changes) (records : String → Option LoginFailureRecord) :
    String → Option LoginFailureRecord :=
  changes.foldl (fun records change => Function.update records change.1 change.2) records

namespace LoginSystem

def new : LoginSystem := ⟨fun _ => none, [], []⟩

def setStage (i : ℕ) (stage : LoginStage) (s : LoginSystem) : LoginSystem :=
  { s with calls := s.calls.modify i fun c => { c with stage := stage } }

def begin (username password ip : String) (now : Time) (s : LoginSystem) : LoginSystem :=
  let stage : LoginStage :=
    if username = "" ∨ password = "" then .answered .invalidCredentials else .cleaning
  { s with calls := s.calls ++ [⟨username, password, ip, now, stage⟩] }

/-- A row that an open transaction has changed, for which other statements that change it wait. -/
def Changing (s : LoginSystem) (key : String) : Prop :=
  ∃ c ∈ s.calls, key ∈ c.changes.map Prod.fst

instance (s : LoginSystem) (key : String) : Decidable (s.Changing key) :=
  inferInstanceAs (Decidable (∃ c ∈ s.calls, key ∈ c.changes.map Prod.fst))

/-- A cleanup waits for each row it would delete. -/
def Blocked (s : LoginSystem) (now : Time) : Prop :=
  ∃ c ∈ s.calls, ∃ key ∈ c.changes.map Prod.fst, Expired (s.records key) now

instance (s : LoginSystem) (now : Time) : Decidable (s.Blocked now) :=
  inferInstanceAs
    (Decidable (∃ c ∈ s.calls, ∃ key ∈ c.changes.map Prod.fst, Expired (s.records key) now))

/-- `CleanupExpiredAuthRecords`, of the failure records. -/
def cleanup (now : Time) (s : LoginSystem) : LoginSystem :=
  { s with
    records := fun key => if Expired (s.records key) now then none else s.records key
    log := .cleaned now :: s.log }

def commit (i : ℕ) (c : LoginCall) (passed : Bool) (changes : Changes) (s : LoginSystem) :
    LoginSystem :=
  { s with
    records := changes.apply s.records
    log := (if passed then .admitted i c.keys c.now else .rejected i c.keys c.now) :: s.log }

section Proceeding

variable (loginAdmissionLockID : String → ℤ)

def Locked (s : LoginSystem) (lock : ℤ) : Prop :=
  ∃ c ∈ s.calls, lock ∈ c.held loginAdmissionLockID

instance (s : LoginSystem) (lock : ℤ) : Decidable (s.Locked loginAdmissionLockID lock) :=
  inferInstanceAs (Decidable (∃ c ∈ s.calls, lock ∈ c.held loginAdmissionLockID))

/-- The next statement of a call that has not failed. A statement that waits does nothing. -/
def advance (i : ℕ) (c : LoginCall) (passed : Bool) (s : LoginSystem) : LoginSystem :=
  match c.stage with
  | .cleaning => if s.Blocked c.now then s else (s.cleanup c.now).setStage i (.checking c.keys)
  | .checking [] => s.setStage i .verifying
  | .checking (key :: keys) =>
    if Throttled (s.records key) c.now then s.setStage i (.answered .tooManyAttempts)
    else s.setStage i (.checking keys)
  | .verifying => s.setStage i (.locking passed [] (c.locks loginAdmissionLockID))
  | .locking passed _ [] => s.setStage i (.lockedChecking passed c.keys)
  | .locking passed held (lock :: wanted) =>
    if s.Locked loginAdmissionLockID lock then s
    else s.setStage i (.locking passed (held ++ [lock]) wanted)
  | .lockedChecking passed [] => s.setStage i (if passed then .clearing else .recording c.keys [])
  | .lockedChecking passed (key :: keys) =>
    if Throttled (s.records key) c.now then s.setStage i (.answered .tooManyAttempts)
    else s.setStage i (.lockedChecking passed keys)
  | .recording [] changes => s.setStage i (.committing false changes)
  | .recording (key :: keys) changes =>
    if s.Changing key then s
    else
      s.setStage i
        (.recording keys (changes ++ [(key, some (upsertLoginFailure (s.records key) c.now))]))
  | .clearing =>
    if ∃ key ∈ c.keys, s.Changing key then s
    else s.setStage i (.committing true (c.keys.map fun key => (key, none)))
  | .committing passed changes =>
    (s.commit i c passed changes).setStage i
      (if passed then .storing else .answered .invalidCredentials)
  | .storing => s.setStage i (.answered .session)
  | .answered _ => s

/-- A statement that fails ends the call, and its transaction with it. -/
def fail (i : ℕ) (c : LoginCall) (s : LoginSystem) : LoginSystem :=
  match c.stage with
  | .answered _ => s
  | _ => s.setStage i (.answered .failed)

def proceed (i : ℕ) (passed error : Bool) (s : LoginSystem) : LoginSystem :=
  match s.calls[i]? with
  | none => s
  | some c => if error then s.fail i c else s.advance loginAdmissionLockID i c passed

end Proceeding

end LoginSystem

/-- A call begins or goes on, or a cleanup is done apart from the calls: at the start of Core, or
for a call that does not learn that it was done. -/
inductive LoginStep
  | begin (username password ip : String) (now : Time)
  | proceed (call : ℕ) (passed error : Bool)
  | cleanup (now : Time)
  deriving DecidableEq, Repr

section Running

variable (loginAdmissionLockID : String → ℤ)

def LoginStep.run (s : LoginSystem) : LoginStep → LoginSystem
  | .begin username password ip now => s.begin username password ip now
  | .proceed call passed error => s.proceed loginAdmissionLockID call passed error
  | .cleanup now => if s.Blocked now then s else s.cleanup now

inductive LoginReachable : LoginSystem → Prop
  | new : LoginReachable .new
  | step {s : LoginSystem} (step : LoginStep) :
    LoginReachable s → LoginReachable (step.run loginAdmissionLockID s)

end Running

end Atlas.Core.Admin
