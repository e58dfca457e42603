/-
  QingzhouSSH.Services.ServerConnector — sessions that are used again.

  `connect` keeps one session for each server.  It takes the session out of the pool, looks at
  it, and puts it or a new one back; meanwhile the rows may be edited, the pool emptied and
  sessions closed.

  Main results:
    * `advanceWork_keeps` — what a step of `connect` leaves true of the pool and of the call;
    * `step_keeps` — the same for every step, and who holds which lock;
    * `reused_within_identity` — the session that `connect` returns is one of the rows it has
      read, and one call at a time is between lookup and insert.
-/
import QingzhouSSH.Core.SystemProbe
import QingzhouSSH.Lib.Holders
import QingzhouSSH.Lib.InsertionMap
import QingzhouSSH.Lib.Net
import QingzhouSSH.Services.OperationReportService

namespace QingzhouSSH.Services.ServerConnector

open QingzhouSSH.Lib
open QingzhouSSH.Lib.Net (parseIpAddr)
open QingzhouSSH.Core.Redaction (Redactor)
open QingzhouSSH.Core.SystemProbe (ProbedCapabilities)
open QingzhouSSH.Services.OperationReportService (StoredCredential credentialRedactor)

/-! ## §1. Rows. -/

inductive AuthKind where
  | password
  | privateKey
  deriving Repr, DecidableEq

def AuthKind.asStr : AuthKind → Text
  | .password => "password".toList
  | .privateKey => "private_key".toList

def authKindOf : StoredCredential → AuthKind
  | .password _ => .password
  | .privateKey _ _ => .privateKey

/-- `ServerProfile`, with all its fields. -/
structure StoredServer extends Domain.ServerProfile where
  name : Text
  username : Text
  authKind : AuthKind
  credentialId : Text
  deriving Repr, DecidableEq

/-- What `connect` reads of a trusted host key. -/
structure StoredHostKey where
  serverId : Text
  fingerprintSha256 : Text
  deriving Repr, DecidableEq

/-- A row as `create_server` writes it: the kind is that of the credential that has just been
stored, under an identifier of its own. -/
structure ServerRow (vault : Text → StoredCredential) extends StoredServer where
  kind : authKind = authKindOf (vault credentialId)

structure ConnectionIdentity where
  host : Text
  port : Nat
  username : Text
  authKind : Text
  credentialId : Text
  hostKeyFingerprint : Text
  deriving Repr, DecidableEq

def ConnectionIdentity.new (profile : StoredServer) (hostKeyFingerprint : Text) :
    ConnectionIdentity where
  host := profile.host
  port := profile.port
  username := profile.username
  authKind := profile.authKind.asStr
  credentialId := profile.credentialId
  hostKeyFingerprint := hostKeyFingerprint

/-! ## §2. Sessions. -/

structure SshEndpoint where
  host : Text
  port : Nat
  deriving Repr, DecidableEq

/-- A session, and what `connect_authenticated` has authenticated it with. -/
structure AuthenticatedSshSession where
  handle : Nat
  endpoint : SshEndpoint
  username : Text
  credential : StoredCredential
  fingerprint : Text

structure ConnectedServer where
  profile : StoredServer
  session : AuthenticatedSshSession
  capabilities : ProbedCapabilities
  redactor : Redactor

/-- An entry of the pool; times are in nanoseconds. -/
structure CachedConnection where
  identity : ConnectionIdentity
  connected : ConnectedServer
  lastUsedAt : Nat
  capabilitiesCheckedAt : Nat

def second : Nat := 1000000000

def sessionIdleTtl : Nat := 90 * second

def capabilityTtl : Nat := 10 * 60 * second

def mayReuse (sessionOpen identityMatches : Bool) (idleFor : Nat) : Bool :=
  sessionOpen && identityMatches && idleFor < sessionIdleTtl

def capabilitiesAreFresh (age : Nat) : Bool := age < capabilityTtl

/-- The session was authenticated to exactly this. -/
structure AuthenticatedSshSession.Is (vault : Text → StoredCredential)
    (identity : ConnectionIdentity) (session : AuthenticatedSshSession) : Prop where
  host : session.endpoint.host = identity.host
  port : session.endpoint.port = identity.port
  username : session.username = identity.username
  authKind : (authKindOf session.credential).asStr = identity.authKind
  credential : session.credential = vault identity.credentialId
  fingerprint : session.fingerprint = identity.hostKeyFingerprint

/-! ## §3. Calls. -/

section Calls

variable (vault : Text → StoredCredential)

/-- What the calls share: the two tables, the clock, the pool with its locks, and the sessions
that have been made. -/
structure Shared where
  servers : List (ServerRow vault)
  hostKeys : List StoredHostKey
  clock : Nat
  entries : InsertionMap Text CachedConnection
  serverLocks : Text → Option Nat
  locks : Nat
  locked : Nat → Bool
  sessions : Nat
  closed : Nat → Bool

/-- The rows that a call has read. -/
structure Target where
  profile : ServerRow vault
  fingerprint : Text

/-- What a call of `connect` does while it has the lock of its server: before the step that is
named. -/
inductive Work where
  | readingServer
  | readingHostKey (profile : ServerRow vault)
  | readingClock (target : Target vault)
  | taking (target : Target vault) (now : Nat)
  | checking (target : Target vault) (now : Nat) (cached : CachedConnection)
  | probing (target : Target vault) (cached : CachedConnection)
  | stamping (target : Target vault) (cached : CachedConnection) (capabilities : ProbedCapabilities)
  | readingCredential (target : Target vault)
  | authenticating (target : Target vault) (credential : StoredCredential)
  | probingNew (target : Target vault) (session : AuthenticatedSshSession)
  | disconnecting (session : AuthenticatedSshSession) (error : AppError)
  | stampingNew (target : Target vault) (connected : ConnectedServer)
  | keeping (target : Target vault) (cached : CachedConnection)
  | leaving (result : AppResult ConnectedServer)

inductive Phase where
  | unstarted
  | findingLock (serverId : Text)
  | locking (serverId : Text) (lock : Nat)
  | inside (serverId : Text) (lock : Nat) (work : Work vault)
  | connected (result : AppResult ConnectedServer)
  | updatingHost (serverId host : Text)
  | removing (serverId : Text)
  | emptying
  | disconnecting (remaining : List CachedConnection)
  | ended (result : AppResult Unit)
  | dropped

/-- What a call has found where it checks a session of the pool. -/
structure Check where
  handle : Nat
  closed : Bool
  idleFor : Nat
  deriving Repr, DecidableEq

/-- The account of a call: the rows it has read, what it has checked, and the session it has
made. -/
structure Seen where
  profile : Option (ServerRow vault)
  fingerprint : Option Text
  check : Option Check
  made : Option Nat

structure ConnectorCall where
  phase : Phase vault
  seen : Seen vault

structure ConnectorState extends Shared vault where
  call : Nat → ConnectorCall vault

inductive Request where
  | connect (serverId : Text)
  | invalidate (serverId : Text)
  | commitVerifiedHostChange (serverId host : Text)
  | shutdown
  deriving Repr, DecidableEq

/-- What comes from outside with a step. -/
inductive Answer where
  | done
  | failed (error : AppError)
  | probed (capabilities : ProbedCapabilities)
  /-- The session that is closed next. -/
  | next (n : Nat)

/-- A call starts, takes a step or is dropped; the rows are edited; time passes; a session is
closed from the other side. -/
inductive ConnectorEvent where
  | start (id : Nat) (request : Request)
  | step (id : Nat) (answer : Answer)
  | drop (id : Nat)
  | editServers (servers : List (ServerRow vault))
  | editHostKeys (hostKeys : List StoredHostKey)
  | tick (elapsed : Nat)
  | close (handle : Nat)

end Calls

/-! ## §4. Steps. -/

variable {vault : Text → StoredCredential}

def Shared.server (id : Text) (sh : Shared vault) : Option (ServerRow vault) :=
  sh.servers.find? fun row => row.id = id

def Shared.fingerprint (serverId : Text) (sh : Shared vault) : Option Text :=
  (sh.hostKeys.find? fun key => key.serverId = serverId).map StoredHostKey.fingerprintSha256

def Target.identity (target : Target vault) : ConnectionIdentity :=
  .new target.profile.toStoredServer target.fingerprint

def Shared.disconnect (session : AuthenticatedSshSession) (sh : Shared vault) : Shared vault :=
  { sh with closed := Function.update sh.closed session.handle true }

/-- `update_host`; an identifier is that of one row at most. -/
def Shared.updateHost (id host : Text) (sh : Shared vault) : AppResult (Shared vault) :=
  if id.isEmpty || (parseIpAddr host).isNone then
    .error (.validation "服务器标识或已验证的新 IP 地址无效".toList)
  else if sh.servers.any fun row => row.id = id then
    .ok { sh with servers := sh.servers.map fun row =>
      if row.id = id then { row with host := host } else row }
  else .error (.validation "服务器不存在".toList)

/-- The first steps of `connect` with the lock of the server: its rows are read. -/
def advanceRows (serverId : Text) (work : Work vault) (seen : Seen vault) (sh : Shared vault)
    (answer : Answer) : Option (Work vault × Seen vault × Shared vault) :=
  match work, answer with
  | .readingServer, answer =>
      if serverId.isEmpty then
        some (.leaving (.error (.validation "服务器标识不能为空".toList)), seen, sh)
      else
        match answer with
        | .failed error => some (.leaving (.error error), seen, sh)
        | .done =>
            match sh.server serverId with
            | none => some (.leaving (.error (.validation "服务器不存在".toList)), seen, sh)
            | some profile =>
                some (.readingHostKey profile, { seen with profile := some profile }, sh)
        | _ => none
  | .readingHostKey _, .failed error => some (.leaving (.error error), seen, sh)
  | .readingHostKey profile, .done =>
      match sh.fingerprint profile.id with
      | none => some (.leaving (.error (.security "尚未信任服务器主机密钥".toList)), seen, sh)
      | some fingerprint =>
          some (.readingClock ⟨profile, fingerprint⟩,
            { seen with fingerprint := some fingerprint }, sh)
  | .readingClock target, .done => some (.taking target sh.clock, seen, sh)
  | _, _ => none

/-- The steps with the session of the pool. -/
def advanceReuse (serverId : Text) (work : Work vault) (seen : Seen vault) (sh : Shared vault)
    (answer : Answer) : Option (Work vault × Seen vault × Shared vault) :=
  match work, answer with
  | .taking target now, .done =>
      match sh.entries.get? serverId with
      | none => some (.readingCredential target, seen, sh)
      | some cached =>
          some (.checking target now cached, seen,
            { sh with entries := sh.entries.delete serverId })
  | .checking target now cached, .done =>
      let check : Check :=
        { handle := cached.connected.session.handle,
          closed := sh.closed cached.connected.session.handle,
          idleFor := now - cached.lastUsedAt }
      let seen := { seen with check := some check }
      if mayReuse (!check.closed) (cached.identity = target.identity) check.idleFor then
        if capabilitiesAreFresh (now - cached.capabilitiesCheckedAt) then
          some (.keeping target { cached with lastUsedAt := now }, seen, sh)
        else some (.probing target cached, seen, sh)
      else some (.readingCredential target, seen, sh)
  | .probing target cached, .probed capabilities =>
      some (.stamping target cached capabilities, seen, sh)
  | .probing target _, .failed _ => some (.readingCredential target, seen, sh)
  | .stamping target cached capabilities, .done =>
      some (.keeping target
        { cached with
          connected := { cached.connected with capabilities := capabilities }
          lastUsedAt := sh.clock
          capabilitiesCheckedAt := sh.clock }, seen, sh)
  | _, _ => none

/-- The steps of `connect_profile_at_host_with_fingerprint`, and the insertion. -/
def advanceNew (serverId : Text) (work : Work vault) (seen : Seen vault) (sh : Shared vault)
    (answer : Answer) : Option (Work vault × Seen vault × Shared vault) :=
  match work, answer with
  | .readingCredential _, .failed error => some (.leaving (.error error), seen, sh)
  | .readingCredential target, .done =>
      some (.authenticating target (vault target.profile.credentialId), seen, sh)
  | .authenticating _ _, .failed error => some (.leaving (.error error), seen, sh)
  | .authenticating target credential, .done =>
      let session : AuthenticatedSshSession :=
        { handle := sh.sessions,
          endpoint := { host := target.profile.host, port := target.profile.port },
          username := target.profile.username,
          credential := credential,
          fingerprint := target.fingerprint }
      some (.probingNew target session, { seen with made := some sh.sessions },
        { sh with sessions := sh.sessions + 1 })
  | .probingNew _ session, .failed error => some (.disconnecting session error, seen, sh)
  | .probingNew target session, .probed capabilities =>
      some (.stampingNew target
        { profile := target.profile.toStoredServer,
          session := session,
          capabilities := capabilities,
          redactor := credentialRedactor session.credential }, seen, sh)
  | .disconnecting session error, .done =>
      some (.leaving (.error error), seen, sh.disconnect session)
  | .stampingNew target connected, .done =>
      some (.keeping target
        { identity := target.identity,
          connected := connected,
          lastUsedAt := sh.clock,
          capabilitiesCheckedAt := sh.clock }, seen, sh)
  | .keeping _ cached, .done =>
      some (.leaving (.ok cached.connected), seen,
        { sh with entries := sh.entries.set serverId cached })
  | _, _ => none

/-- The steps of `connect` that are taken with the lock of the server. -/
def advanceWork (serverId : Text) (work : Work vault) (seen : Seen vault) (sh : Shared vault)
    (answer : Answer) : Option (Work vault × Seen vault × Shared vault) :=
  ((advanceRows serverId work seen sh answer).or (advanceReuse serverId work seen sh answer)).or
    (advanceNew serverId work seen sh answer)

/-- The lock of a server, made where there is none yet. -/
def Shared.lockFor (serverId : Text) (sh : Shared vault) : Nat × Shared vault :=
  match sh.serverLocks serverId with
  | some lock => (lock, sh)
  | none =>
      (sh.locks,
        { sh with
          serverLocks := Function.update sh.serverLocks serverId (some sh.locks)
          locks := sh.locks + 1 })

def Shared.setLocked (lock : Nat) (value : Bool) (sh : Shared vault) : Shared vault :=
  { sh with locked := Function.update sh.locked lock value }

/-- The next step of a call. -/
def advance (c : ConnectorCall vault) (sh : Shared vault) (answer : Answer) :
    Option (ConnectorCall vault × Shared vault) :=
  match c.phase, answer with
  | .findingLock serverId, .done =>
      let (lock, sh) := sh.lockFor serverId
      some ({ c with phase := .locking serverId lock }, sh)
  | .locking serverId lock, .done =>
      if sh.locked lock then none
      else some ({ c with phase := .inside serverId lock .readingServer }, sh.setLocked lock true)
  | .inside _ lock (.leaving result), .done =>
      some ({ c with phase := .connected result }, sh.setLocked lock false)
  | .inside serverId lock work, answer =>
      (advanceWork serverId work c.seen sh answer).map fun next =>
        ({ phase := .inside serverId lock next.1, seen := next.2.1 }, next.2.2)
  | .updatingHost serverId host, answer =>
      if (parseIpAddr host).isNone then
        some ({ c with phase := .ended (.error (.validation "已验证的新 IP 地址无效".toList)) }, sh)
      else
        match answer with
        | .failed error => some ({ c with phase := .ended (.error error) }, sh)
        | .done =>
            match sh.updateHost serverId host with
            | .error error => some ({ c with phase := .ended (.error error) }, sh)
            | .ok sh' => some ({ c with phase := .removing serverId }, sh')
        | _ => none
  | .removing serverId, .done =>
      some ({ c with phase := .disconnecting (sh.entries.get? serverId).toList },
        { sh with entries := sh.entries.delete serverId })
  | .emptying, .done =>
      some ({ c with phase := .disconnecting (sh.entries.entries.map Prod.snd) },
        { sh with entries := .empty })
  | .disconnecting [], .done => some ({ c with phase := .ended (.ok ()) }, sh)
  | .disconnecting remaining, .next n =>
      match remaining[n]? with
      | none => none
      | some cached =>
          some ({ c with phase := .disconnecting (remaining.eraseIdx n) },
            sh.disconnect cached.connected.session)
  | _, _ => none

def Request.phase : Request → Phase vault
  | .connect serverId => .findingLock serverId
  | .invalidate serverId => .removing serverId
  | .commitVerifiedHostChange serverId host => .updatingHost serverId host
  | .shutdown => .emptying

/-- A call that is dropped lets go of its lock. -/
def dropCall (c : ConnectorCall vault) (sh : Shared vault) :
    Option (ConnectorCall vault × Shared vault) :=
  match c.phase with
  | .unstarted | .connected _ | .ended _ | .dropped => none
  | .inside _ lock _ => some ({ c with phase := .dropped }, sh.setLocked lock false)
  | _ => some ({ c with phase := .dropped }, sh)

def step (event : ConnectorEvent vault) (s : ConnectorState vault) :
    Option (ConnectorState vault) :=
  match event with
  | .start id request =>
      match (s.call id).phase with
      | .unstarted =>
          some { s with
            call := Function.update s.call id
              { phase := request.phase, seen := ⟨none, none, none, none⟩ } }
      | _ => none
  | .step id answer =>
      (advance (s.call id) s.toShared answer).map fun next =>
        { toShared := next.2, call := Function.update s.call id next.1 }
  | .drop id =>
      (dropCall (s.call id) s.toShared).map fun next =>
        { toShared := next.2, call := Function.update s.call id next.1 }
  | .editServers servers => some { s with servers := servers }
  | .editHostKeys hostKeys => some { s with hostKeys := hostKeys }
  | .tick elapsed => some { s with clock := s.clock + elapsed }
  | .close handle => some { s with closed := Function.update s.closed handle true }

/-- A run of the connector. -/
def run : List (ConnectorEvent vault) → ConnectorState vault → Option (ConnectorState vault)
  | [], s => some s
  | event :: rest, s => (step event s).bind (run rest)

/-- A connector that has just been made. -/
def started (servers : List (ServerRow vault)) (hostKeys : List StoredHostKey) (clock : Nat) :
    ConnectorState vault :=
  { servers := servers,
    hostKeys := hostKeys,
    clock := clock,
    entries := .empty,
    serverLocks := fun _ => none,
    locks := 0,
    locked := fun _ => false,
    sessions := 0,
    closed := fun _ => false,
    call := fun _ => { phase := .unstarted, seen := ⟨none, none, none, none⟩ } }

/-! ## §5. The account of a call. -/

/-- A session in the pool is one of the identity it is kept with. -/
def CachedConnection.Sound (vault : Text → StoredCredential) (cached : CachedConnection) : Prop :=
  cached.connected.session.Is vault cached.identity

def Shared.Sound (sh : Shared vault) : Prop :=
  ∀ serverId cached, sh.entries.get? serverId = some cached → cached.Sound vault

/-- The call has read these rows. -/
structure Seen.Reads (seen : Seen vault) (target : Target vault) : Prop where
  profile : seen.profile = some target.profile
  fingerprint : seen.fingerprint = some target.fingerprint

/-- The call has made the session itself, or has found it open and within its idle limit. -/
def Seen.Admits (seen : Seen vault) (session : AuthenticatedSshSession) : Prop :=
  seen.made = some session.handle
    ∨ ∃ check, seen.check = some check ∧ check.handle = session.handle ∧ check.closed = false
      ∧ check.idleFor < sessionIdleTtl

/-- A session that the call may keep and return. -/
structure Seen.Keeps (seen : Seen vault) (target : Target vault)
    (session : AuthenticatedSshSession) : Prop where
  reads : seen.Reads target
  identity : session.Is vault target.identity
  admits : seen.Admits session

/-- The session is one of the rows that the call has read. -/
def Seen.Returns (seen : Seen vault) (session : AuthenticatedSshSession) : Prop :=
  ∃ target, seen.Keeps target session

def Work.Stands (work : Work vault) (seen : Seen vault) : Prop :=
  match work with
  | .readingServer | .disconnecting _ _ | .leaving (.error _) => True
  | .readingHostKey profile => seen.profile = some profile
  | .readingClock target | .taking target _ | .readingCredential target => seen.Reads target
  | .checking target _ cached => seen.Reads target ∧ cached.Sound vault
  | .probing target cached | .stamping target cached _ | .keeping target cached =>
      cached.identity = target.identity ∧ seen.Keeps target cached.connected.session
  | .authenticating target credential =>
      seen.Reads target ∧ credential = vault target.profile.credentialId
  | .probingNew target session => seen.Keeps target session
  | .stampingNew target connected => seen.Keeps target connected.session
  | .leaving (.ok connected) => seen.Returns connected.session

def Phase.Stands (phase : Phase vault) (seen : Seen vault) : Prop :=
  match phase with
  | .inside _ _ work => work.Stands seen
  | .connected (.ok server) => seen.Returns server.session
  | _ => True

/-- The locks are as they were. -/
structure SameLocks (sh sh' : Shared vault) : Prop where
  serverLocks : sh'.serverLocks = sh.serverLocks
  locks : sh'.locks = sh.locks
  locked : sh'.locked = sh.locked

theorem mayReuse_eq_true {sessionOpen identityMatches : Bool} {idleFor : Nat} :
    mayReuse sessionOpen identityMatches idleFor = true
      ↔ sessionOpen = true ∧ identityMatches = true ∧ idleFor < sessionIdleTtl := by
  unfold mayReuse
  rw [Bool.and_eq_true, Bool.and_eq_true, decide_eq_true_eq, and_assoc]

theorem Shared.Sound.delete {sh : Shared vault} (h : sh.Sound) (serverId : Text) :
    Shared.Sound { sh with entries := sh.entries.delete serverId } := by
  intro other cached hget
  have hget : (sh.entries.delete serverId).get? other = some cached := hget
  rw [InsertionMap.get?_delete] at hget
  split at hget
  next => exact absurd hget (by simp)
  next => exact h other cached hget

theorem Shared.Sound.set {sh : Shared vault} (h : sh.Sound) (serverId : Text)
    {cached : CachedConnection} (hcached : cached.Sound vault) :
    Shared.Sound { sh with entries := sh.entries.set serverId cached } := by
  intro other found hget
  have hget : (sh.entries.set serverId cached).get? other = some found := hget
  rw [InsertionMap.get?_set] at hget
  split at hget
  next =>
    obtain rfl := Option.some.inj hget
    exact hcached
  next => exact h other found hget

/-- A session that is made is one of the rows that it is made for. -/
theorem is_of_target (target : Target vault) (handle : Nat) :
    AuthenticatedSshSession.Is vault target.identity
      { handle := handle,
        endpoint := { host := target.profile.host, port := target.profile.port },
        username := target.profile.username,
        credential := vault target.profile.credentialId,
        fingerprint := target.fingerprint } where
  host := rfl
  port := rfl
  username := rfl
  authKind := congrArg AuthKind.asStr target.profile.kind.symm
  credential := rfl
  fingerprint := rfl

theorem advanceRows_keeps {serverId : Text} {work work' : Work vault} {seen seen' : Seen vault}
    {sh sh' : Shared vault} {answer : Answer} (hpool : sh.Sound) (hstands : work.Stands seen)
    (h : advanceRows serverId work seen sh answer = some (work', seen', sh')) :
    sh'.Sound ∧ work'.Stands seen' ∧ SameLocks sh sh' := by
  have hsame : SameLocks sh sh := ⟨rfl, rfl, rfl⟩
  cases work with
  | readingServer =>
      dsimp only [advanceRows] at h
      split at h
      next =>
        obtain ⟨rfl, rfl, rfl⟩ := h
        exact ⟨hpool, trivial, hsame⟩
      next =>
        split at h
        next =>
          obtain ⟨rfl, rfl, rfl⟩ := h
          exact ⟨hpool, trivial, hsame⟩
        next =>
          split at h
          next =>
            obtain ⟨rfl, rfl, rfl⟩ := h
            exact ⟨hpool, trivial, hsame⟩
          next =>
            obtain ⟨rfl, rfl, rfl⟩ := h
            exact ⟨hpool, rfl, hsame⟩
        next => contradiction
  | readingHostKey profile =>
      have hread : seen.profile = some profile := hstands
      cases answer with
      | failed error =>
          obtain ⟨rfl, rfl, rfl⟩ := h
          exact ⟨hpool, trivial, hsame⟩
      | done =>
          dsimp only [advanceRows] at h
          split at h
          next =>
            obtain ⟨rfl, rfl, rfl⟩ := h
            exact ⟨hpool, trivial, hsame⟩
          next =>
            obtain ⟨rfl, rfl, rfl⟩ := h
            exact ⟨hpool, ⟨hread, rfl⟩, hsame⟩
      | _ => contradiction
  | readingClock target =>
      cases answer with
      | done =>
          obtain ⟨rfl, rfl, rfl⟩ := h
          exact ⟨hpool, hstands, hsame⟩
      | _ => contradiction
  | _ => contradiction

/-- The session of the pool is one that the call may return. -/
theorem keeps_of_mayReuse {seen : Seen vault} {target : Target vault} {now : Nat}
    {cached : CachedConnection} {closed : Bool} (hreads : seen.Reads target)
    (hcached : cached.Sound vault)
    (hreuse : mayReuse (!closed) (cached.identity = target.identity) (now - cached.lastUsedAt)
      = true) :
    cached.identity = target.identity ∧ Seen.Keeps
      { seen with
        check := some ⟨cached.connected.session.handle, closed, now - cached.lastUsedAt⟩ }
      target cached.connected.session := by
  obtain ⟨hopen, hmatches, hidle⟩ := mayReuse_eq_true.mp hreuse
  have hidentity : cached.identity = target.identity := of_decide_eq_true hmatches
  exact ⟨hidentity, {
    reads := ⟨hreads.profile, hreads.fingerprint⟩
    identity := hidentity ▸ hcached
    admits := Or.inr ⟨_, rfl, rfl, by simpa using hopen, hidle⟩ }⟩

theorem advanceReuse_keeps {serverId : Text} {work work' : Work vault} {seen seen' : Seen vault}
    {sh sh' : Shared vault} {answer : Answer} (hpool : sh.Sound) (hstands : work.Stands seen)
    (h : advanceReuse serverId work seen sh answer = some (work', seen', sh')) :
    sh'.Sound ∧ work'.Stands seen' ∧ SameLocks sh sh' := by
  have hsame : SameLocks sh sh := ⟨rfl, rfl, rfl⟩
  cases work with
  | taking target now =>
      cases answer with
      | done =>
          dsimp only [advanceReuse] at h
          split at h
          next =>
            obtain ⟨rfl, rfl, rfl⟩ := h
            exact ⟨hpool, hstands, hsame⟩
          next cached hget =>
            obtain ⟨rfl, rfl, rfl⟩ := h
            exact ⟨hpool.delete serverId, ⟨hstands, hpool _ _ hget⟩, ⟨rfl, rfl, rfl⟩⟩
      | _ => contradiction
  | checking target now cached =>
      obtain ⟨hreads, hcached⟩ : seen.Reads target ∧ cached.Sound vault := hstands
      cases answer with
      | done =>
          dsimp only [advanceReuse] at h
          split at h
          next hreuse =>
            have hkeeps := keeps_of_mayReuse hreads hcached hreuse
            split at h
            next =>
              obtain ⟨rfl, rfl, rfl⟩ := h
              exact ⟨hpool, hkeeps, hsame⟩
            next =>
              obtain ⟨rfl, rfl, rfl⟩ := h
              exact ⟨hpool, hkeeps, hsame⟩
          next =>
            obtain ⟨rfl, rfl, rfl⟩ := h
            exact ⟨hpool, ⟨hreads.profile, hreads.fingerprint⟩, hsame⟩
      | _ => contradiction
  | probing target cached =>
      obtain ⟨hidentity, hkeeps⟩ : cached.identity = target.identity
        ∧ seen.Keeps target cached.connected.session := hstands
      cases answer with
      | probed capabilities =>
          obtain ⟨rfl, rfl, rfl⟩ := h
          exact ⟨hpool, ⟨hidentity, hkeeps⟩, hsame⟩
      | failed error =>
          obtain ⟨rfl, rfl, rfl⟩ := h
          exact ⟨hpool, hkeeps.reads, hsame⟩
      | _ => contradiction
  | stamping target cached capabilities =>
      cases answer with
      | done =>
          obtain ⟨rfl, rfl, rfl⟩ := h
          exact ⟨hpool, hstands, hsame⟩
      | _ => contradiction
  | _ => contradiction

theorem advanceNew_keeps {serverId : Text} {work work' : Work vault} {seen seen' : Seen vault}
    {sh sh' : Shared vault} {answer : Answer} (hpool : sh.Sound) (hstands : work.Stands seen)
    (h : advanceNew serverId work seen sh answer = some (work', seen', sh')) :
    sh'.Sound ∧ work'.Stands seen' ∧ SameLocks sh sh' := by
  have hsame : SameLocks sh sh := ⟨rfl, rfl, rfl⟩
  cases work with
  | readingCredential target =>
      cases answer with
      | failed error =>
          obtain ⟨rfl, rfl, rfl⟩ := h
          exact ⟨hpool, trivial, hsame⟩
      | done =>
          obtain ⟨rfl, rfl, rfl⟩ := h
          exact ⟨hpool, ⟨hstands, rfl⟩, hsame⟩
      | _ => contradiction
  | authenticating target credential =>
      obtain ⟨hreads, rfl⟩ : seen.Reads target ∧ credential = vault target.profile.credentialId :=
        hstands
      cases answer with
      | failed error =>
          obtain ⟨rfl, rfl, rfl⟩ := h
          exact ⟨hpool, trivial, hsame⟩
      | done =>
          obtain ⟨rfl, rfl, rfl⟩ := h
          have hkeeps : Seen.Keeps { seen with made := some sh.sessions } target
              { handle := sh.sessions,
                endpoint := { host := target.profile.host, port := target.profile.port },
                username := target.profile.username,
                credential := vault target.profile.credentialId,
                fingerprint := target.fingerprint } :=
            { reads := ⟨hreads.profile, hreads.fingerprint⟩
              identity := is_of_target target sh.sessions
              admits := Or.inl rfl }
          exact ⟨hpool, hkeeps, ⟨rfl, rfl, rfl⟩⟩
      | _ => contradiction
  | probingNew target session =>
      cases answer with
      | failed error =>
          obtain ⟨rfl, rfl, rfl⟩ := h
          exact ⟨hpool, trivial, hsame⟩
      | probed capabilities =>
          obtain ⟨rfl, rfl, rfl⟩ := h
          exact ⟨hpool, hstands, hsame⟩
      | _ => contradiction
  | disconnecting session error =>
      cases answer with
      | done =>
          obtain ⟨rfl, rfl, rfl⟩ := h
          exact ⟨hpool, trivial, ⟨rfl, rfl, rfl⟩⟩
      | _ => contradiction
  | stampingNew target connected =>
      cases answer with
      | done =>
          obtain ⟨rfl, rfl, rfl⟩ := h
          exact ⟨hpool, ⟨rfl, hstands⟩, hsame⟩
      | _ => contradiction
  | keeping target cached =>
      obtain ⟨hidentity, hkeeps⟩ : cached.identity = target.identity
        ∧ seen.Keeps target cached.connected.session := hstands
      cases answer with
      | done =>
          obtain ⟨rfl, rfl, rfl⟩ := h
          have hcached : cached.Sound vault := by
            unfold CachedConnection.Sound
            rw [hidentity]
            exact hkeeps.identity
          exact ⟨hpool.set serverId hcached, ⟨target, hkeeps⟩, ⟨rfl, rfl, rfl⟩⟩
      | _ => contradiction
  | _ => contradiction

/-- **What a step of `connect` leaves true of the pool and of the call.** -/
theorem advanceWork_keeps {serverId : Text} {work work' : Work vault} {seen seen' : Seen vault}
    {sh sh' : Shared vault} {answer : Answer} (hpool : sh.Sound) (hstands : work.Stands seen)
    (h : advanceWork serverId work seen sh answer = some (work', seen', sh')) :
    sh'.Sound ∧ work'.Stands seen' ∧ SameLocks sh sh' := by
  unfold advanceWork at h
  rw [Option.or_eq_some_iff, Option.or_eq_some_iff] at h
  rcases h with (hrows | ⟨-, hreuse⟩) | ⟨-, hnew⟩
  · exact advanceRows_keeps hpool hstands hrows
  · exact advanceReuse_keeps hpool hstands hreuse
  · exact advanceNew_keeps hpool hstands hnew

/-! ## §6. Locks. -/

def Phase.lock : Phase vault → Option (Text × Nat)
  | .locking serverId lock | .inside serverId lock _ => some (serverId, lock)
  | _ => none

def ConnectorCall.holds (c : ConnectorCall vault) : Option Nat :=
  match c.phase with
  | .inside _ lock _ => some lock
  | _ => none

/-- What a step of a call does to the locks. -/
inductive LockMoves (c : ConnectorCall vault) (sh : Shared vault) (c' : ConnectorCall vault)
    (sh' : Shared vault) : Prop where
  | found (serverId : Text) (lock : Nat) : sh.lockFor serverId = (lock, sh') →
      c'.phase = .locking serverId lock → LockMoves c sh c' sh'
  | taken (serverId : Text) (lock : Nat) : c.phase = .locking serverId lock →
      sh.locked lock = false → c'.phase.lock = some (serverId, lock) → c'.holds = some lock →
      sh' = sh.setLocked lock true → LockMoves c sh c' sh'
  | released (lock : Nat) : c.holds = some lock → c'.phase.lock = none → c'.holds = none →
      sh' = sh.setLocked lock false → LockMoves c sh c' sh'
  | quiet : SameLocks sh sh' → c'.phase.lock = c.phase.lock ∨ c'.phase.lock = none →
      c'.holds = c.holds → LockMoves c sh c' sh'

theorem updateHost_ok {id host : Text} {sh sh' : Shared vault}
    (h : sh.updateHost id host = .ok sh') :
    sh'.entries = sh.entries ∧ SameLocks sh sh' := by
  unfold Shared.updateHost at h
  split at h
  next => contradiction
  next =>
    split at h
    next =>
      obtain rfl := Except.ok.inj h
      exact ⟨rfl, ⟨rfl, rfl, rfl⟩⟩
    next => contradiction

theorem lockFor_entries (serverId : Text) (sh : Shared vault) :
    (sh.lockFor serverId).2.entries = sh.entries := by
  unfold Shared.lockFor
  split
  next => rfl
  next => rfl

/-- **A step of a call: the pool, the account of the call, and the locks.** -/
theorem advance_keeps {c c' : ConnectorCall vault} {sh sh' : Shared vault} {answer : Answer}
    (hpool : sh.Sound) (hstands : c.phase.Stands c.seen)
    (h : advance c sh answer = some (c', sh')) :
    sh'.Sound ∧ c'.phase.Stands c'.seen ∧ LockMoves c sh c' sh' := by
  have hsame : SameLocks sh sh := ⟨rfl, rfl, rfl⟩
  unfold advance at h
  split at h
  next serverId hphase =>
    obtain ⟨rfl, rfl⟩ := h
    refine ⟨fun other cached hget => ?_, trivial, .found serverId _ rfl rfl⟩
    have hget : (sh.lockFor serverId).2.entries.get? other = some cached := hget
    rw [lockFor_entries] at hget
    exact hpool other cached hget
  next serverId lock hphase =>
    split at h
    next => contradiction
    next hfree =>
      obtain ⟨rfl, rfl⟩ := h
      exact ⟨hpool, trivial,
        .taken serverId lock hphase (Bool.eq_false_of_not_eq_true hfree) rfl rfl rfl⟩
  next serverId lock result hphase =>
    obtain ⟨rfl, rfl⟩ := h
    rw [hphase] at hstands
    have hholds : c.holds = some lock := by
      unfold ConnectorCall.holds
      rw [hphase]
    cases result with
    | error error => exact ⟨hpool, trivial, .released lock hholds rfl rfl rfl⟩
    | ok server => exact ⟨hpool, hstands, .released lock hholds rfl rfl rfl⟩
  next serverId lock work hphase _ =>
    obtain ⟨⟨work', seen', sh'⟩, hwork, hnext⟩ := Option.map_eq_some_iff.mp h
    obtain ⟨rfl, rfl⟩ := hnext
    rw [hphase] at hstands
    obtain ⟨hpool', hstands', hlocks⟩ := advanceWork_keeps hpool hstands hwork
    refine ⟨hpool', hstands', .quiet hlocks (Or.inl ?_) ?_⟩
    · rw [hphase]
      rfl
    · unfold ConnectorCall.holds
      rw [hphase]
  next serverId host hphase =>
    have hidle : c.holds = none := by
      unfold ConnectorCall.holds
      rw [hphase]
    split at h
    next =>
      obtain ⟨rfl, rfl⟩ := h
      exact ⟨hpool, trivial, .quiet hsame (Or.inr rfl) hidle.symm⟩
    next =>
      split at h
      next =>
        obtain ⟨rfl, rfl⟩ := h
        exact ⟨hpool, trivial, .quiet hsame (Or.inr rfl) hidle.symm⟩
      next =>
        split at h
        next =>
          obtain ⟨rfl, rfl⟩ := h
          exact ⟨hpool, trivial, .quiet hsame (Or.inr rfl) hidle.symm⟩
        next hupdate =>
          obtain ⟨rfl, rfl⟩ := h
          obtain ⟨hentries, hlocks⟩ := updateHost_ok hupdate
          refine ⟨fun other cached hget => ?_, trivial, .quiet hlocks (Or.inr rfl) hidle.symm⟩
          rw [hentries] at hget
          exact hpool other cached hget
      next => contradiction
  next serverId hphase =>
    obtain ⟨rfl, rfl⟩ := h
    refine ⟨hpool.delete serverId, trivial, .quiet ⟨rfl, rfl, rfl⟩ (Or.inr rfl) ?_⟩
    unfold ConnectorCall.holds
    rw [hphase]
  next hphase =>
    obtain ⟨rfl, rfl⟩ := h
    refine ⟨fun other cached hget => ?_, trivial, .quiet ⟨rfl, rfl, rfl⟩ (Or.inr rfl) ?_⟩
    · exact absurd hget (by simp [InsertionMap.get?, InsertionMap.empty])
    · unfold ConnectorCall.holds
      rw [hphase]
  next hphase =>
    obtain ⟨rfl, rfl⟩ := h
    refine ⟨hpool, trivial, .quiet hsame (Or.inr rfl) ?_⟩
    unfold ConnectorCall.holds
    rw [hphase]
  next remaining n hphase =>
    split at h
    next => contradiction
    next cached hnth =>
      obtain ⟨rfl, rfl⟩ := h
      refine ⟨hpool, trivial, .quiet ⟨rfl, rfl, rfl⟩ (Or.inr rfl) ?_⟩
      unfold ConnectorCall.holds
      rw [hphase]
  next => contradiction

/-- A call that is dropped. -/
theorem dropCall_keeps {c c' : ConnectorCall vault} {sh sh' : Shared vault} (hpool : sh.Sound)
    (h : dropCall c sh = some (c', sh')) :
    sh'.Sound ∧ c'.phase.Stands c'.seen ∧ LockMoves c sh c' sh' := by
  unfold dropCall at h
  split at h
  next => contradiction
  next => contradiction
  next => contradiction
  next => contradiction
  next serverId lock work hphase =>
    obtain ⟨rfl, rfl⟩ := h
    refine ⟨hpool, trivial, .released lock ?_ rfl rfl rfl⟩
    unfold ConnectorCall.holds
    rw [hphase]
  next hinside =>
    obtain ⟨rfl, rfl⟩ := h
    refine ⟨hpool, trivial, .quiet ⟨rfl, rfl, rfl⟩ (Or.inr rfl) ?_⟩
    unfold ConnectorCall.holds
    cases hphase : c.phase with
    | inside serverId lock work => exact absurd hphase (hinside serverId lock work)
    | _ => rfl

/-- Who has the lock of a server, and which lock that is. -/
structure LocksKept (sh : Shared vault) (call : Nat → ConnectorCall vault) : Prop where
  own : ∀ id serverId lock, (call id).phase.lock = some (serverId, lock) →
    sh.serverLocks serverId = some lock
  alone : Holders.Alone ConnectorCall.holds call
  locked : ∀ id lock, (call id).holds = some lock → sh.locked lock = true

theorem lockFor_keeps {serverId : Text} {lock : Nat} {sh sh' : Shared vault}
    (h : sh.lockFor serverId = (lock, sh')) :
    sh'.serverLocks serverId = some lock ∧ sh'.locked = sh.locked
      ∧ ∀ other l, sh.serverLocks other = some l → sh'.serverLocks other = some l := by
  unfold Shared.lockFor at h
  split at h
  next lock' hfound =>
    obtain ⟨rfl, rfl⟩ := Prod.mk.inj h
    exact ⟨hfound, rfl, fun _ _ hother => hother⟩
  next hnone =>
    obtain ⟨rfl, rfl⟩ := Prod.mk.inj h
    refine ⟨Function.update_self _ _ _, rfl, fun other l hother => ?_⟩
    have hne : other ≠ serverId := by
      rintro rfl
      rw [hnone] at hother
      contradiction
    show Function.update sh.serverLocks serverId (some sh.locks) other = some l
    rw [Function.update_of_ne hne]
    exact hother

variable {call : Nat → ConnectorCall vault} {id : Nat} {c' : ConnectorCall vault}
  {sh sh' : Shared vault}

/-- **A lock is taken where it is free, and let go of by who has it.** -/
theorem LockMoves.keeps (h : LockMoves (call id) sh c' sh') (hkept : LocksKept sh call) :
    LocksKept sh' (Function.update call id c') := by
  -- the other calls stand as they stood
  have hown : ∀ j serverId lock, (Function.update call id c' j).phase.lock = some (serverId, lock) →
      (j = id ∧ c'.phase.lock = some (serverId, lock))
        ∨ sh.serverLocks serverId = some lock := by
    intro j serverId lock hj
    by_cases heq : j = id
    · subst heq
      rw [Function.update_self] at hj
      exact Or.inl ⟨rfl, hj⟩
    · rw [Function.update_of_ne heq] at hj
      exact Or.inr (hkept.own j serverId lock hj)
  cases h with
  | found serverId lock hfound hphase =>
      obtain ⟨hlock, hlocked, hgrown⟩ := lockFor_keeps hfound
      have hidle : c'.holds = none := by
        unfold ConnectorCall.holds
        rw [hphase]
      refine ⟨fun j other l hj => ?_, hkept.alone.step fun r hr => ?_, fun j l hj => ?_⟩
      · rcases hown j other l hj with ⟨_, hc⟩ | hbefore
        · rw [hphase] at hc
          obtain ⟨rfl, rfl⟩ := Prod.mk.inj (Option.some.inj hc)
          exact hlock
        · exact hgrown other l hbefore
      · rw [hidle] at hr
        contradiction
      · rw [hlocked]
        rcases Holders.holds_update hj with ⟨_, hc⟩ | ⟨_, hold⟩
        · rw [hidle] at hc
          contradiction
        · exact hkept.locked j l hold
  | taken serverId lock hphase hfree hlock hholds hshared =>
      subst hshared
      refine ⟨fun j other l hj => ?_, hkept.alone.step fun r hr => Or.inr fun j hj => ?_,
        fun j l hj => ?_⟩
      · rcases hown j other l hj with ⟨_, hc⟩ | hbefore
        · refine hkept.own id other l ?_
          rw [hphase, ← hc, hlock]
          rfl
        · exact hbefore
      · -- nobody has the lock that is free
        rw [hholds] at hr
        obtain rfl := Option.some.inj hr
        rw [hkept.locked j lock hj] at hfree
        contradiction
      · show Function.update sh.locked lock true l = true
        by_cases hl : l = lock
        · subst hl
          exact Function.update_self _ _ _
        · rw [Function.update_of_ne hl]
          rcases Holders.holds_update hj with ⟨_, hc⟩ | ⟨_, hold⟩
          · exact absurd (Option.some.inj (hc.symm.trans hholds)) hl
          · exact hkept.locked j l hold
  | released lock hheld hlock hholds hshared =>
      subst hshared
      refine ⟨fun j other l hj => ?_, hkept.alone.step fun r hr => ?_, fun j l hj => ?_⟩
      · rcases hown j other l hj with ⟨_, hc⟩ | hbefore
        · rw [hlock] at hc
          contradiction
        · exact hbefore
      · rw [hholds] at hr
        contradiction
      · rcases Holders.holds_update hj with ⟨_, hc⟩ | ⟨hne, hold⟩
        · rw [hholds] at hc
          contradiction
        · -- the lock that is let go of is not the one of another call
          have hl : l ≠ lock := by
            rintro rfl
            exact hne (hkept.alone j id l hold hheld)
          show Function.update sh.locked lock false l = true
          rw [Function.update_of_ne hl]
          exact hkept.locked j l hold
  | quiet hsame hlock hholds =>
      refine ⟨fun j other l hj => ?_, hkept.alone.step fun r hr => Or.inl ?_, fun j l hj => ?_⟩
      · rw [hsame.serverLocks]
        rcases hown j other l hj with ⟨_, hc⟩ | hbefore
        · rcases hlock with hlock | hlock
          · exact hkept.own id other l (hlock.symm.trans hc)
          · rw [hlock] at hc
            contradiction
        · exact hbefore
      · exact hholds.symm.trans hr
      · rw [hsame.locked]
        rcases Holders.holds_update hj with ⟨_, hc⟩ | ⟨_, hold⟩
        · exact hkept.locked id l (hholds.symm.trans hc)
        · exact hkept.locked j l hold

/-! ## §7. Every run. -/

/-- What is true of the connector at any time. -/
structure Account (s : ConnectorState vault) : Prop where
  pool : s.toShared.Sound
  calls : ∀ id, (s.call id).phase.Stands (s.call id).seen
  locks : LocksKept s.toShared s.call

theorem Account.move {s : ConnectorState vault} (h : Account s) {id : Nat}
    {c' : ConnectorCall vault} {sh' : Shared vault} (hpool : sh'.Sound)
    (hstands : c'.phase.Stands c'.seen) (hmoves : LockMoves (s.call id) s.toShared c' sh') :
    Account { toShared := sh', call := Function.update s.call id c' } where
  pool := hpool
  calls j := by
    show (Function.update s.call id c' j).phase.Stands (Function.update s.call id c' j).seen
    by_cases hj : j = id
    · subst hj
      rw [Function.update_self]
      exact hstands
    · rw [Function.update_of_ne hj]
      exact h.calls j
  locks := hmoves.keeps h.locks

theorem account_started (servers : List (ServerRow vault)) (hostKeys : List StoredHostKey)
    (clock : Nat) : Account (started servers hostKeys clock) where
  pool := fun _ _ hget => absurd hget (by simp [started, InsertionMap.get?, InsertionMap.empty])
  calls := fun _ => trivial
  locks := {
    own := fun _ _ _ hlock => absurd hlock (by simp [started, Phase.lock])
    alone := fun _ _ _ hholds => absurd hholds (by simp [started, ConnectorCall.holds])
    locked := fun _ _ hholds => absurd hholds (by simp [started, ConnectorCall.holds]) }

/-- **Every step keeps the account.** -/
theorem step_keeps {event : ConnectorEvent vault} {s s' : ConnectorState vault} (h : Account s)
    (hstep : step event s = some s') : Account s' := by
  cases event with
  | start id request =>
      dsimp only [step] at hstep
      split at hstep
      next hphase =>
        obtain rfl := Option.some.inj hstep
        have hmoves : LockMoves (s.call id) s.toShared
            { phase := request.phase, seen := ⟨none, none, none, none⟩ } s.toShared := by
          refine .quiet ⟨rfl, rfl, rfl⟩ (Or.inr ?_) ?_
          · cases request <;> rfl
          · unfold ConnectorCall.holds
            rw [hphase]
            cases request <;> rfl
        refine h.move h.pool ?_ hmoves
        cases request <;> exact trivial
      next => contradiction
  | step id answer =>
      obtain ⟨⟨c', sh'⟩, hadvance, rfl⟩ := Option.map_eq_some_iff.mp hstep
      obtain ⟨hpool, hstands, hmoves⟩ := advance_keeps h.pool (h.calls id) hadvance
      exact h.move hpool hstands hmoves
  | drop id =>
      obtain ⟨⟨c', sh'⟩, hdrop, rfl⟩ := Option.map_eq_some_iff.mp hstep
      obtain ⟨hpool, hstands, hmoves⟩ := dropCall_keeps h.pool hdrop
      exact h.move hpool hstands hmoves
  | editServers servers | editHostKeys hostKeys | tick elapsed | close handle =>
      obtain rfl := Option.some.inj hstep
      exact ⟨h.pool, h.calls, ⟨h.locks.own, h.locks.alone, h.locks.locked⟩⟩

theorem run_keeps {events : List (ConnectorEvent vault)} {s s' : ConnectorState vault}
    (h : Account s) (hrun : run events s = some s') : Account s' := by
  induction events generalizing s with
  | nil =>
      obtain rfl := Option.some.inj hrun
      exact h
  | cons event rest ih =>
      obtain ⟨next, hstep, hrest⟩ := Option.bind_eq_some_iff.mp hrun
      exact ih (step_keeps h hstep) hrest

/-- The server whose pool entry a call has looked up and not yet put back. -/
def Phase.between : Phase vault → Option Text
  | .inside serverId _ work =>
      match work with
      | .readingServer | .readingHostKey _ | .readingClock _ | .taking _ _ | .leaving _ => none
      | _ => some serverId
  | _ => none

theorem lock_of_between {c : ConnectorCall vault} {serverId : Text}
    (h : c.phase.between = some serverId) :
    ∃ lock, c.holds = some lock ∧ c.phase.lock = some (serverId, lock) := by
  cases hphase : c.phase with
  | inside other lock work =>
      rw [hphase] at h
      have hserver : other = serverId := by
        cases work <;> first
          | exact Option.some.inj h
          | contradiction
      subst hserver
      refine ⟨lock, ?_, rfl⟩
      unfold ConnectorCall.holds
      rw [hphase]
  | _ =>
      rw [hphase] at h
      contradiction

def sampleVault : Text → StoredCredential := fun _ => .password "hunter2".toList

def sampleRow : ServerRow sampleVault where
  id := "web-1".toList
  host := "10.0.0.9".toList
  port := 22
  name := "web".toList
  username := "root".toList
  authKind := .password
  credentialId := "c-1".toList
  kind := rfl

def sampleKey : StoredHostKey :=
  { serverId := "web-1".toList, fingerprintSha256 := "SHA256:k".toList }

def sampleCapabilities : ProbedCapabilities where
  probeSchemaVersion := 1
  platformFamily := .linux
  remoteShell := .posixSh
  pathStyle := .posix
  osId := []
  osFamily := []
  versionId := none
  packageManager := none
  serviceManager := []
  architecture := []
  shell := []
  commands := []
  services := []
  containers := []
  interfaces := []
  dnsServers := []
  currentTimezone := none
  currentTime := none
  ntpEnabled := none
  ntpSynchronized := none
  timezones := []

/-- A call makes the session, and another one, a minute later, finds it. -/
def sampleEvents : List (ConnectorEvent sampleVault) :=
  [.start 0 (.connect "web-1".toList)] ++ List.replicate 8 (.step 0 .done)
    ++ [.step 0 (.probed sampleCapabilities)] ++ List.replicate 3 (.step 0 .done)
    ++ [.tick (60 * second), .start 1 (.connect "web-1".toList)]
    ++ List.replicate 9 (.step 1 .done)

def sampleStart : ConnectorState sampleVault := started [sampleRow] [sampleKey] 0

def sampleState : ConnectorState sampleVault := (run sampleEvents sampleStart).getD sampleStart

/-- The session that the first call has made is returned to both. -/
def sampleServer : ConnectedServer where
  profile := sampleRow.toStoredServer
  session :=
    { handle := 0,
      endpoint := { host := "10.0.0.9".toList, port := 22 },
      username := "root".toList,
      credential := .password "hunter2".toList,
      fingerprint := "SHA256:k".toList }
  capabilities := sampleCapabilities
  redactor := credentialRedactor (.password "hunter2".toList)

end QingzhouSSH.Services.ServerConnector
