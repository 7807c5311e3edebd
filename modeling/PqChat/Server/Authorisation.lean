/-
# Who may change what

Over every history of frames on any number of connections, with the calls of their threads in
any order, on either server:

* an envelope in the mailbox of `u` is addressed to `u` and was put there by a frame whose token
  belongs to its sender;
* entries of that mailbox are returned or deleted only by a frame whose token belongs to `u`;
* the bundle of `u` was published by a frame whose token belongs to `u`, and its signatures
  verify;
* a frame that does not decode or whose token is refused changes nothing.

The argument has two halves that do not know of each other: what the calls do to the stores
(`exec_effect`), and what a thread must have been answered before it makes a call
(`handleFrame_allows`).
-/
import PqChat.Server.Separation

namespace PqChat

open ByteString TcpServer

/-! ## 1. What the calls do -/

namespace Backend

/-- The registered keys. -/
def account : (b : Backend) → b.State → Bytes → Option Bytes
  | inMemoryServer, s => (InMemoryServer.transportIdentities s.object).get
  | sqliteStore, s => (SqliteStore.db s.object).tables.accounts.get

/-- The bundles and the mailboxes. -/
def stores : (b : Backend) → b.State → Stores Bytes
  | inMemoryServer, s => InMemoryServer.stores s.object
  | sqliteStore, s => SqliteStore.stores s.object

/-- What holds between two calls. -/
def Formed : (b : Backend) → b.State → Prop
  | inMemoryServer, _ => True
  | sqliteStore, s => SqliteStore.WellFormed s.object ∧ SqliteStore.Ordered s.object

/-- The envelopes that are read back as they were written. -/
def Survives : Backend → Envelope Bytes → Prop
  | inMemoryServer, _ => True
  | sqliteStore, envelope => SqliteStore.Survives envelope

theorem Fresh.formed {b : Backend} {s : b.State} (h : b.Fresh s) : b.Formed s := by
  cases b with
  | inMemoryServer => trivial
  | sqliteStore =>
    obtain ⟨outcome, hmacSecret, token, hs⟩ := h
    change SqliteStore.WellFormed s.object ∧ SqliteStore.Ordered s.object
    rw [hs]
    exact ⟨SqliteStore.wellFormed_init _ _ _, SqliteStore.ordered_init _ _ _⟩

/-- What a call with its answer does to bundles, mailboxes and accounts. -/
def Effect (c : ServerCrypto) (b : Backend) :
    (call : TcpServer.Call) → Except String call.Answer → b.State → b.State → Prop
  | .publishBundle bundle, r, s, s' =>
    (b.stores s).Published c.toCrypto bundle r (b.stores s') ∧ b.account s' = b.account s
  | .acquireBundleForSession userId, r, s, s' =>
    (b.stores s).Acquired userId r (b.stores s') ∧ b.account s' = b.account s
  | .enqueueEnvelope userId envelope, r, s, s' =>
    (b.stores s).Enqueued userId envelope (b.Survives envelope) r (b.stores s') ∧
      b.account s' = b.account s
  | .drainInbox userId ack, r, s, s' =>
    (b.stores s).Drained userId ack r (b.stores s') ∧ b.account s' = b.account s
  | .registerTransportIdentity _, _, s, s' => b.stores s' = b.stores s
  | _, _, s, s' => b.stores s' = b.stores s ∧ b.account s' = b.account s

/-- A check of the rates does not touch the server object. -/
theorem object_enforcePreAuthRateLimit {σ : Type} (command : UInt32) (peerAddr : Bytes)
    (w : TcpServer σ) : (enforcePreAuthRateLimit command peerAddr w).2.api.object =
      w.api.object := by
  have h : Proc.Preserves (fun w' : TcpServer σ => w'.api.object = w.api.object)
      (enforcePreAuthRateLimit command peerAddr) := by
    unfold enforcePreAuthRateLimit
    split
    · exact .pure _
    · refine .bind (.zoom fun _ h => h) fun _ => .bind .get fun _ => ?_
      refine .bind (.modify fun _ h => h) fun _ => ?_
      exact .bind (.zoom fun _ h => h) fun _ => .zoom fun _ h => h
  exact h w rfl

theorem object_enforcePreAuthUserRateLimit {σ : Type} (command : UInt32)
    (peerAddr userId : Bytes) (w : TcpServer σ) :
    (enforcePreAuthUserRateLimit command peerAddr userId w).2.api.object = w.api.object := by
  have h : Proc.Preserves (fun w' : TcpServer σ => w'.api.object = w.api.object)
      (enforcePreAuthUserRateLimit command peerAddr userId) := by
    unfold enforcePreAuthUserRateLimit
    split
    · exact .pure _
    · split
      · exact .pure _
      · refine .bind (.zoom fun _ h => h) fun _ => .bind .get fun _ => ?_
        exact .bind (.modify fun _ h => h) fun _ => .zoom fun _ h => h
  exact h w rfl

/-- The calls on `InMemoryServer`. -/
theorem inMemory_effect (c : ServerCrypto) (call : TcpServer.Call)
    (w : TcpServer (InMemoryServer Bytes)) :
    Effect c inMemoryServer call (exec (InMemoryServer.api c) call w).1 w.api
      (exec (InMemoryServer.api c) call w).2.api := by
  have hsame : ∀ {α : Type} {x : Proc (Hosted (InMemoryServer Bytes)) α},
      Proc.Preserves (fun s => InMemoryServer.SameStores w.api.object
        (· = w.api.object.transportIdentities) s.object) x →
      inMemoryServer.stores (x w.api).2 = inMemoryServer.stores w.api ∧
        inMemoryServer.account (x w.api).2 = inMemoryServer.account w.api := by
    intro α x hx
    have h := hx w.api ⟨rfl, rfl, rfl, rfl⟩
    exact ⟨h.stores, congrArg Map.get h.2.2.2⟩
  have haccount : ∀ {α : Type} (x : Proc (InMemoryServer Bytes) α),
      (∀ {A : Map Bytes Bytes → Prop},
        Proc.Preserves (fun s : InMemoryServer Bytes => A s.transportIdentities) x) →
      inMemoryServer.account (Hosted.on x w.api).2 = inMemoryServer.account w.api := by
    intro α x hx
    exact congrArg Map.get (hx (A := (· = w.api.object.transportIdentities)) w.api.object rfl)
  cases call with
  | enforcePreAuthRateLimit command peerAddr =>
    have hobject := object_enforcePreAuthRateLimit command peerAddr w
    exact ⟨congrArg InMemoryServer.stores hobject,
      congrArg (fun s => (InMemoryServer.transportIdentities s).get) hobject⟩
  | enforcePreAuthUserRateLimit command peerAddr userId =>
    have hobject := object_enforcePreAuthUserRateLimit command peerAddr userId w
    exact ⟨congrArg InMemoryServer.stores hobject,
      congrArg (fun s => (InMemoryServer.transportIdentities s).get) hobject⟩
  | registerTransportIdentity request =>
    exact (InMemoryServer.preserves_register request w.api.object ⟨rfl, rfl, rfl, trivial⟩).stores
  | beginTransportAuthentication request => exact hsame (InMemoryServer.preserves_begin request)
  | finishTransportAuthentication request => exact hsame (InMemoryServer.preserves_finish request)
  | authenticateSessionToken token => exact hsame (InMemoryServer.preserves_authenticate token)
  | revokeSessionToken token =>
    exact hsame (Hosted.preserves_on (InMemoryServer.preserves_revoke token))
  | publishBundle bundle =>
    exact ⟨InMemoryServer.publishBundle_stores bundle w.api.object,
      haccount _ (InMemoryServer.preserves_accounts_publish bundle)⟩
  | acquireBundleForSession userId =>
    exact ⟨InMemoryServer.acquireBundleForSession_stores userId w.api.object,
      haccount (InMemoryServer.acquireBundleForSession userId)
        (InMemoryServer.preserves_accounts_acquire userId)⟩
  | enqueueEnvelope userId envelope =>
    exact ⟨InMemoryServer.enqueueEnvelope_stores userId envelope True w.api.object,
      haccount _ (InMemoryServer.preserves_accounts_enqueue userId envelope)⟩
  | drainInbox userId ack =>
    exact ⟨InMemoryServer.drainInbox_stores userId ack w.api.object,
      haccount (InMemoryServer.drainInbox userId ack)
        (InMemoryServer.preserves_accounts_drain userId ack)⟩

/-- The calls on `SqliteStore`. -/
theorem sqlite_effect (c : ServerCrypto) (call : TcpServer.Call) {w : TcpServer SqliteStore}
    (hw : sqliteStore.Formed w.api) :
    sqliteStore.Formed (exec (SqliteStore.api c) call w).2.api ∧
      Effect c sqliteStore call (exec (SqliteStore.api c) call w).1 w.api
        (exec (SqliteStore.api c) call w).2.api := by
  obtain ⟨hwf, hordered⟩ := hw
  have hobject : ∀ {w' : TcpServer SqliteStore}, w'.api.object = w.api.object →
      sqliteStore.Formed w'.api ∧ sqliteStore.stores w'.api = sqliteStore.stores w.api ∧
        sqliteStore.account w'.api = sqliteStore.account w.api := by
    intro w' h
    refine ⟨?_, congrArg SqliteStore.stores h,
      congrArg (fun s => (SqliteStore.db s).tables.accounts.get) h⟩
    change SqliteStore.WellFormed w'.api.object ∧ SqliteStore.Ordered w'.api.object
    rw [h]
    exact ⟨hwf, hordered⟩
  have hkeeps : ∀ {F : SqliteStore.Tables → Prop}, F w.api.object.db.tables →
      w.api.object.db.Keeps F := by
    refine fun hF => ⟨hF, fun t ht => ?_⟩
    rw [hwf.closed] at ht
    cases ht
  have hstart : ∀ {A : Map Bytes Bytes → Prop}, A w.api.object.db.tables.accounts →
      w.api.object.db.Keeps (SqliteStore.Tables.SameStores w.api.object.db.tables A) :=
    fun hA => hkeeps ⟨rfl, rfl, rfl, rfl, hA⟩
  -- an authentication call other than a registration
  have hauth : ∀ {α : Type} (x : Proc (Hosted SqliteStore) α),
      SqliteStore.WellFormed (x w.api).2.object →
      (∀ {A : Map Bytes Bytes → Prop}, Proc.Preserves (fun s : Hosted SqliteStore =>
        s.object.db.Keeps (SqliteStore.Tables.SameStores w.api.object.db.tables A)) x) →
      sqliteStore.Formed (x w.api).2 ∧
        sqliteStore.stores (x w.api).2 = sqliteStore.stores w.api ∧
        sqliteStore.account (x w.api).2 = sqliteStore.account w.api := by
    intro α x hwf' hx
    have h := (hx (A := (· = w.api.object.db.tables.accounts)) w.api (hstart rfl)).1
    exact ⟨⟨hwf', hwf'.closed, h.ordered hordered.tables⟩, h.stores,
      congrArg Map.get h.2.2.2.2⟩
  -- a call on bundles or mailboxes
  have hstore : ∀ {α : Type} (x : Proc SqliteStore α) {Q : Except String α → SqliteStore → Prop},
      Proc.wp x (fun r s' => s'.Ordered ∧ Q r s') w.api.object →
      Proc.Preserves (fun s : SqliteStore =>
        s.db.Keeps (SqliteStore.Tables.SameAuth w.api.object.db.tables)) x →
      sqliteStore.Formed (Hosted.on x w.api).2 ∧ Q (x w.api.object).1 (x w.api.object).2 ∧
        sqliteStore.account (Hosted.on x w.api).2 = sqliteStore.account w.api := by
    intro α x Q hQ hx
    have h := (hx w.api.object (hkeeps ⟨rfl, rfl, rfl⟩)).1
    exact ⟨⟨⟨hQ.1.closed, h.users hwf.users⟩, hQ.1⟩, hQ.2, congrArg Map.get h.1⟩
  cases call with
  | enforcePreAuthRateLimit command peerAddr =>
    exact hobject (object_enforcePreAuthRateLimit command peerAddr w)
  | enforcePreAuthUserRateLimit command peerAddr userId =>
    exact hobject (object_enforcePreAuthUserRateLimit command peerAddr userId w)
  | registerTransportIdentity request =>
    have hstep := SqliteStore.register_step c 0 0 request hwf
    have h := (SqliteStore.preserves_register (c := c) request w.api.object (hstart trivial)).1
    exact ⟨⟨hstep.wellFormed, hstep.wellFormed.closed, h.ordered hordered.tables⟩, h.stores⟩
  | beginTransportAuthentication request =>
    exact hauth _ (SqliteStore.begin_step c request hwf).wellFormed
      (SqliteStore.preserves_begin request)
  | finishTransportAuthentication request =>
    exact hauth _ (SqliteStore.finish_step c request hwf).wellFormed
      (SqliteStore.preserves_finish request)
  | authenticateSessionToken token =>
    exact hauth _ (SqliteStore.authenticate_step c token hwf).wellFormed
      (SqliteStore.preserves_authenticate token)
  | revokeSessionToken token =>
    exact hauth (Hosted.on (SqliteStore.revokeSessionToken c token))
      (SqliteStore.revoke_step c 0 0 token hwf).wellFormed
      (Hosted.preserves_on (F := fun s : SqliteStore => s.db.Keeps _)
        (SqliteStore.preserves_revoke token))
  | publishBundle bundle =>
    exact hstore _ (SqliteStore.publishBundle_stores bundle hordered)
      (SqliteStore.preserves_auth_publish bundle)
  | acquireBundleForSession userId =>
    exact hstore _ (SqliteStore.acquireBundleForSession_stores userId hordered)
      (SqliteStore.preserves_auth_acquire userId)
  | enqueueEnvelope userId envelope =>
    exact hstore _ (SqliteStore.enqueueEnvelope_stores userId envelope hordered)
      (SqliteStore.preserves_auth_enqueue userId envelope)
  | drainInbox userId ack =>
    exact hstore _ (SqliteStore.drainInbox_stores userId ack hordered)
      (SqliteStore.preserves_auth_drain userId ack)

/-- **What the calls do**, on either server. -/
theorem exec_effect (c : ServerCrypto) (b : Backend) (call : TcpServer.Call)
    {w : TcpServer b.Object} (hw : b.Formed w.api) :
    b.Formed (exec (b.api c) call w).2.api ∧
      Effect c b call (exec (b.api c) call w).1 w.api (exec (b.api c) call w).2.api := by
  cases b with
  | inMemoryServer => exact ⟨trivial, inMemory_effect c call w⟩
  | sqliteStore => exact sqlite_effect c call hw

/-- The tables of the database are in order. -/
def Ordered : (b : Backend) → b.State → Prop
  | inMemoryServer, _ => True
  | sqliteStore, s => SqliteStore.Ordered s.object

theorem Fresh.ordered {b : Backend} {s : b.State} (h : b.Fresh s) : b.Ordered s := by
  cases b with
  | inMemoryServer => trivial
  | sqliteStore => exact h.formed.2

/-- **Either server keeps bundles and mailboxes.** -/
theorem storeService (c : ServerCrypto) (b : Backend) :
    StoreService c.toCrypto (b.api c).toServerApi b.Ordered b.stores b.Survives := by
  cases b with
  | inMemoryServer =>
    have h := InMemoryServer.storeService c.toCrypto
    exact ⟨fun bundle s => h.publishBundle bundle s.object,
      fun userId s => h.acquireBundleForSession userId s.object,
      fun userId envelope s => h.enqueueEnvelope userId envelope s.object,
      fun userId ack s => h.drainInbox userId ack s.object⟩
  | sqliteStore =>
    have h := SqliteStore.storeService c.toCrypto
    exact ⟨fun bundle s => h.publishBundle bundle s.object,
      fun userId s => h.acquireBundleForSession userId s.object,
      fun userId envelope s => h.enqueueEnvelope userId envelope s.object,
      fun userId ack s => h.drainInbox userId ack s.object⟩

/-- What is left of a bundle when some of its one-time keys have been handed out. -/
def LeftOf (bundle published : PrekeyBundle Bytes) : Prop :=
  ∃ ecs pqs, ecs <:+ published.oneTimeEc ∧ pqs <:+ published.oneTimePq ∧
    bundle = { published with oneTimeEc := ecs, oneTimePq := pqs }

/-- The entries that the answer to a call contains. -/
def returned : (call : TcpServer.Call) → Except String call.Answer → List (StoredEnvelope Bytes)
  | .drainInbox _ _, .ok page => page.map InboxEnvelope.stored
  | _, _ => []

section Inversion

variable {c : ServerCrypto} {b : Backend} {call : TcpServer.Call} {r : Except String call.Answer}
  {s s' : b.State}

/-- A new entry of a mailbox comes from a call that put it there. -/
theorem Effect.inbox (h : Effect c b call r s s') {u : Bytes} {entry : StoredEnvelope Bytes}
    (hentry : entry ∈ (b.stores s').inbox u) : entry ∈ (b.stores s).inbox u ∨
      ∃ envelope, call = .enqueueEnvelope u envelope ∧
        (b.Survives envelope → entry.content = .ok envelope) := by
  cases call with
  | publishBundle bundle =>
    rw [h.1.inbox] at hentry
    exact Or.inl hentry
  | acquireBundleForSession userId =>
    rw [h.1.inbox] at hentry
    exact Or.inl hentry
  | enqueueEnvelope userId envelope =>
    cases r with
    | error e =>
      rw [h.1.refused e rfl] at hentry
      exact Or.inl hentry
    | ok _ =>
      obtain ⟨entry', hcontent, hinbox, -⟩ := h.1.accepted rfl
      rw [hinbox] at hentry
      by_cases hu : u = userId
      · subst hu
        rw [Function.update_self, List.mem_append, List.mem_singleton] at hentry
        rcases hentry with hentry | rfl
        · exact Or.inl hentry
        · exact Or.inr ⟨envelope, rfl, hcontent⟩
      · rw [Function.update_of_ne hu] at hentry
        exact Or.inl hentry
  | drainInbox userId ack => exact Or.inl ((h.1.suffix u).subset hentry)
  | registerTransportIdentity request =>
    rw [show b.stores s' = b.stores s from h] at hentry
    exact Or.inl hentry
  | _ =>
    rw [h.1] at hentry
    exact Or.inl hentry

/-- An entry that is gone has been acknowledged. -/
theorem Effect.deleted (h : Effect c b call r s s') {u : Bytes} {entry : StoredEnvelope Bytes}
    (hbefore : entry ∈ (b.stores s).inbox u) (hafter : entry ∉ (b.stores s').inbox u) :
    ∃ ack, call = .drainInbox u ack := by
  cases call with
  | publishBundle bundle =>
    rw [h.1.inbox] at hafter
    exact absurd hbefore hafter
  | acquireBundleForSession userId =>
    rw [h.1.inbox] at hafter
    exact absurd hbefore hafter
  | enqueueEnvelope userId envelope =>
    refine absurd ?_ hafter
    cases r with
    | error e =>
      rw [h.1.refused e rfl]
      exact hbefore
    | ok _ =>
      obtain ⟨entry', -, hinbox, -⟩ := h.1.accepted rfl
      rw [hinbox]
      by_cases hu : u = userId
      · subst hu
        rw [Function.update_self]
        exact List.mem_append_left _ hbefore
      · rw [Function.update_of_ne hu]
        exact hbefore
  | drainInbox userId ack =>
    by_cases hu : u = userId
    · exact ⟨ack, by rw [hu]⟩
    · rw [h.1.others u hu] at hafter
      exact absurd hbefore hafter
  | registerTransportIdentity request =>
    rw [show b.stores s' = b.stores s from h] at hafter
    exact absurd hbefore hafter
  | _ =>
    rw [h.1] at hafter
    exact absurd hbefore hafter

/-- An entry that is returned is one of the mailbox that was asked for. -/
theorem Effect.returned (h : Effect c b call r s s') {entry : StoredEnvelope Bytes}
    (hentry : entry ∈ Backend.returned call r) :
    ∃ userId ack, call = .drainInbox userId ack ∧ entry ∈ (b.stores s).inbox userId := by
  cases call with
  | drainInbox userId ack =>
    cases r with
    | error e => cases hentry
    | ok page =>
      obtain ⟨hacked, hpage⟩ := h.1.accepted page rfl
      exact ⟨userId, ack, rfl, hacked.suffix.subset (hpage.subset hentry)⟩
  | _ => cases hentry

/-- A bundle is what is left of the one from before, or it has just been published. -/
theorem Effect.bundle (h : Effect c b call r s s') {u : Bytes} {bundle : PrekeyBundle Bytes}
    (hbundle : (b.stores s').bundle u = some bundle) :
    (∃ before, (b.stores s).bundle u = some before ∧ LeftOf bundle before) ∨
    call = .publishBundle bundle ∧ bundle.userId = u ∧
      verifyPrekeyBundleSignatures c.toCrypto bundle = .ok () := by
  have hsame : ∀ {stores : Stores Bytes}, stores.bundle = (b.stores s).bundle →
      stores.bundle u = some bundle →
      ∃ before, (b.stores s).bundle u = some before ∧ LeftOf bundle before := by
    intro stores hstores h
    rw [hstores] at h
    exact ⟨bundle, h, _, _, List.suffix_refl _, List.suffix_refl _, rfl⟩
  cases call with
  | publishBundle published =>
    cases r with
    | error e => exact Or.inl (hsame (h.1.refused e rfl) hbundle)
    | ok _ =>
      obtain ⟨hverify, hafter⟩ := h.1.accepted rfl
      rw [hafter] at hbundle
      by_cases hu : u = published.userId
      · subst hu
        rw [Function.update_self] at hbundle
        obtain rfl := Option.some.inj hbundle
        exact Or.inr ⟨rfl, rfl, hverify⟩
      · rw [Function.update_of_ne hu] at hbundle
        exact Or.inl (hsame rfl hbundle)
  | acquireBundleForSession userId =>
    refine Or.inl ?_
    cases r with
    | error e => exact hsame (h.1.refused e rfl) hbundle
    | ok given =>
      cases h.1.accepted given rfl with
      | none _ _ _ hafter => exact hsame hafter hbundle
      | pair stored ec pq ecs pqs _ hstored hec hpq _ _ hafter =>
        rw [hafter] at hbundle
        by_cases hu : u = userId
        · subst hu
          rw [Function.update_self] at hbundle
          obtain rfl := Option.some.inj hbundle
          exact ⟨stored, hstored, ecs, pqs, ⟨[ec], hec.symm⟩, ⟨[pq], hpq.symm⟩, rfl⟩
        · rw [Function.update_of_ne hu] at hbundle
          exact hsame rfl hbundle
  | enqueueEnvelope userId envelope => exact Or.inl (hsame h.1.bundle hbundle)
  | drainInbox userId ack => exact Or.inl (hsame h.1.bundle hbundle)
  | registerTransportIdentity request =>
    exact Or.inl (hsame (congrArg Stores.bundle (show b.stores s' = b.stores s from h)) hbundle)
  | _ => exact Or.inl (hsame (congrArg Stores.bundle h.1) hbundle)

end Inversion

end Backend

/-! ## 2. What a call follows on -/

namespace TcpServer

/-- The payload behind the token is what the command asks for. -/
def decodesInner (command : UInt32) (payload : Bytes) : Bool :=
  if command = TcpCommand.kLogout then true
  else if command = TcpCommand.kPublishBundle then (deserializePrekeyBundle payload).isOk
  else if command = TcpCommand.kAcquireBundle then (deserializeString payload).isOk
  else if command = TcpCommand.kEnqueueEnvelope then (deserializeEnqueueRequest payload).isOk
  else if command = TcpCommand.kDrainInbox then (deserializeDrainInboxRequest payload).isOk
  else false

/-- The frame decodes, as a frame of its command. -/
def Frame.decodes (frame : Frame) : Bool :=
  if frame.command = TcpCommand.kRegisterTransportIdentity then
    (deserializeRegisterRequest frame.payload).isOk
  else if frame.command = TcpCommand.kAuthBegin then
    (deserializeAuthBeginRequest frame.payload).isOk
  else if frame.command = TcpCommand.kAuthFinish then
    (deserializeAuthFinishRequest frame.payload).isOk
  else match deserializeAuthenticatedPayload frame.payload with
    | .error _ => false
    | .ok authenticated => decodesInner frame.command authenticated.payload

/-- The calls that the handling of a frame has made, newest first. -/
abbrev Made := List (Thread.Made Call Call.Answer)

/-- `AuthenticateSessionToken` has mapped the token of the frame to the user. -/
def SentBy (frame : Frame) (made : Made) (userId : Bytes) : Prop :=
  ∃ authenticated, deserializeAuthenticatedPayload frame.payload = .ok authenticated ∧
    ⟨.authenticateSessionToken authenticated.sessionToken, .ok userId⟩ ∈ made

/-- `AuthenticateSessionToken` has refused a token. -/
def Refused (made : Made) : Prop :=
  ∃ token e, ⟨.authenticateSessionToken token, .error e⟩ ∈ made

/-- The frame has shown what a change needs: it decodes, and its token, if its command needs
one, has been accepted. -/
structure Cleared (frame : Frame) (made : Made) : Prop where
  decodes : frame.decodes
  token : frame.command = TcpCommand.kRegisterTransportIdentity ∨ ∃ u, SentBy frame made u
  notRefused : ¬ Refused made

/-- What a call follows on. -/
def Allowed (frame : Frame) (made : Made) : Call → Prop
  | .registerTransportIdentity _ => Cleared frame made
  | .publishBundle bundle => Cleared frame made ∧ SentBy frame made bundle.userId
  | .acquireBundleForSession _ => Cleared frame made
  | .enqueueEnvelope userId envelope => Cleared frame made ∧ SqliteStore.Survives envelope ∧
    ∃ sender, SentBy frame made sender ∧ parties envelope = .ok (sender, userId)
  | .drainInbox userId _ => Cleared frame made ∧ SentBy frame made userId
  | _ => True

/-- An envelope that was decoded is read back as it was. -/
theorem survives_of_decoded {bytes : Bytes} {request : EnqueueRequest Bytes}
    (h : deserializeEnqueueRequest bytes = .ok request) :
    SqliteStore.Survives request.envelope := by
  obtain ⟨fields, -, hrest⟩ := Result.bind_eq_ok.mp h
  obtain ⟨envelope, henvelope, hrequest⟩ := Result.bind_eq_ok.mp hrest
  obtain rfl := Except.ok.inj hrequest
  obtain ⟨hput, ⟨hformed, -⟩, -⟩ := decodes_envelope.put_decode _ _ henvelope
  intro bytes' hserialize
  rw [serializeEnvelope_eq hformed] at hserialize
  rw [← Except.ok.inj hserialize, ← hput]
  exact henvelope

theorem handleFrame_allows (peerAddr : Bytes) (frame : Frame) :
    (handleFrame peerAddr frame).Allows (Allowed frame) [] := by
  refine Thread.allows_perform_bind trivial fun _ => ?_
  split
  · rename_i hcommand
    refine Thread.allows_ofExcept_bind fun request hrequest => ?_
    refine Thread.allows_perform_bind trivial fun _ => ?_
    refine Thread.allows_perform_bind ?_ fun _ => Thread.allows_pure _
    refine ⟨?_, Or.inl hcommand, ?_⟩
    · rw [Frame.decodes, if_pos hcommand, hrequest]
      rfl
    · rintro ⟨token, e, h⟩
      simp at h
  rename_i hregister
  split
  · refine Thread.allows_ofExcept_bind fun request hrequest => ?_
    refine Thread.allows_perform_bind trivial fun _ => ?_
    exact Thread.allows_perform_bind trivial fun _ => Thread.allows_ofExcept _
  rename_i hbegin
  split
  · refine Thread.allows_ofExcept_bind fun request hrequest => ?_
    refine Thread.allows_perform_bind trivial fun _ => ?_
    exact Thread.allows_perform_bind trivial fun _ => Thread.allows_ofExcept _
  rename_i hfinish
  -- from here on there is a token
  refine Thread.allows_ofExcept_bind fun authenticated hauthenticated => ?_
  refine Thread.allows_perform_bind trivial fun (sessionUser : Bytes) => ?_
  generalize hmade : (⟨Call.authenticateSessionToken authenticated.sessionToken,
    .ok sessionUser⟩ :: _ : Made) = made
  have hsent : SentBy frame made sessionUser :=
    ⟨authenticated, hauthenticated, hmade ▸ List.mem_cons_self⟩
  have hcleared : decodesInner frame.command authenticated.payload → Cleared frame made := by
    intro hinner
    refine ⟨?_, Or.inr ⟨sessionUser, hsent⟩, ?_⟩
    · rw [Frame.decodes, if_neg hregister, if_neg hbegin, if_neg hfinish, hauthenticated]
      exact hinner
    · rintro ⟨token, e, h⟩
      rw [← hmade] at h
      simp only [List.mem_cons, Thread.Made.mk.injEq, Call.authenticateSessionToken.injEq,
        reduceCtorEq, false_and, List.not_mem_nil, or_false] at h
      obtain ⟨rfl, h⟩ := h
      cases eq_of_heq h
  split
  · exact Thread.allows_perform_bind trivial fun _ => Thread.allows_pure _
  rename_i hlogout
  split
  · rename_i hcommand
    refine Thread.allows_ofExcept_bind fun bundle hbundle => ?_
    refine Thread.allows_require_bind fun huser => ?_
    refine Thread.allows_perform_bind ⟨hcleared ?_, huser ▸ hsent⟩ fun _ => Thread.allows_pure _
    rw [decodesInner, if_neg hlogout, if_pos hcommand, hbundle]
    rfl
  rename_i hpublish
  split
  · rename_i hcommand
    refine Thread.allows_ofExcept_bind fun user huser => ?_
    refine Thread.allows_perform_bind (hcleared ?_) fun _ => Thread.allows_ofExcept _
    rw [decodesInner, if_neg hlogout, if_neg hpublish, if_pos hcommand, huser]
    rfl
  rename_i hacquire
  split
  · rename_i hcommand
    refine Thread.allows_ofExcept_bind fun request hrequest => ?_
    refine Thread.allows_ofExcept_bind fun names hnames => ?_
    refine Thread.allows_require_bind fun hsender => ?_
    refine Thread.allows_require_bind fun hrecipient => ?_
    refine Thread.allows_perform_bind ⟨hcleared ?_, survives_of_decoded hrequest, sessionUser,
      hsent, ?_⟩ fun _ => Thread.allows_pure _
    · rw [decodesInner, if_neg hlogout, if_neg hpublish, if_neg hacquire, if_pos hcommand,
        hrequest]
      rfl
    · rw [hnames, ← hsender, ← hrecipient]
  rename_i henqueue
  split
  · rename_i hcommand
    refine Thread.allows_ofExcept_bind fun request hrequest => ?_
    refine Thread.allows_require_bind fun huser => ?_
    refine Thread.allows_perform_bind ⟨hcleared ?_, hsent⟩ fun _ => Thread.allows_ofExcept _
    rw [decodesInner, if_neg hlogout, if_neg hpublish, if_neg hacquire, if_neg henqueue,
      if_pos hcommand, hrequest]
    rfl
  · exact Thread.allows_ofExcept _

end TcpServer

/-! ## 3. Histories of frames -/

namespace Backend

section Histories

variable (c : ServerCrypto) (b : Backend) (peerAddr : Connection → Bytes) (s₀ : TcpServer b.Object)

/-- The server after a history of frames. -/
def afterFrames (actions : List Action) : TcpServer.World b.Object :=
  TcpServer.after (b.api c) peerAddr s₀ actions

/-- The bundles and the mailboxes after a history of frames. -/
def storesAfter (actions : List Action) : Stores Bytes :=
  b.stores (b.afterFrames c peerAddr s₀ actions).shared.api

/-- The accounts after a history of frames. -/
def accountAfter (actions : List Action) : Bytes → Option Bytes :=
  b.account (b.afterFrames c peerAddr s₀ actions).shared.api

/-- In the history, when `earlier` had happened, the frame of `t` made the call. -/
def Makes (actions : List Action) (t : Task) (call : TcpServer.Call) (i : Connection)
    (earlier : List Action) : Prop :=
  .run i :: earlier <:+ actions ∧ (b.afterFrames c peerAddr s₀ earlier).Calls i t call

/-- The entry is an envelope that is addressed to `u`, and a frame whose token belongs to its
sender put it there. -/
def EnqueuedBy (actions : List Action) (u : Bytes) (entry : StoredEnvelope Bytes) : Prop :=
  ∃ envelope sender, entry.content = .ok envelope ∧ parties envelope = .ok (sender, u) ∧
    ∃ t i earlier, b.Makes c peerAddr s₀ actions t (.enqueueEnvelope u envelope) i earlier ∧
      SentBy t.job t.made sender

/-- The bundle is what is left of one that a frame whose token belongs to `u` published, with
valid signatures. -/
def PublishedBy (actions : List Action) (u : Bytes) (bundle : PrekeyBundle Bytes) : Prop :=
  ∃ published, LeftOf bundle published ∧ published.userId = u ∧
    verifyPrekeyBundleSignatures c.toCrypto published = .ok () ∧
    ∃ t i earlier, b.Makes c peerAddr s₀ actions t (.publishBundle published) i earlier ∧
      SentBy t.job t.made u

/-- The answer to a call. -/
def answer (call : TcpServer.Call) (earlier : List Action) : Except String call.Answer :=
  (exec (b.api c) call (b.afterFrames c peerAddr s₀ earlier).shared).1

variable {c b peerAddr s₀}

theorem Makes.cons {actions : List Action} {t : Task} {call : TcpServer.Call} {i : Connection}
    {earlier : List Action} (a : Action) (h : b.Makes c peerAddr s₀ actions t call i earlier) :
    b.Makes c peerAddr s₀ (a :: actions) t call i earlier :=
  ⟨h.1.trans (List.suffix_cons a actions), h.2⟩

theorem EnqueuedBy.cons {actions : List Action} {u : Bytes} {entry : StoredEnvelope Bytes}
    (a : Action) (h : b.EnqueuedBy c peerAddr s₀ actions u entry) :
    b.EnqueuedBy c peerAddr s₀ (a :: actions) u entry := by
  obtain ⟨envelope, sender, hcontent, hparties, t, i, earlier, hmakes, hsent⟩ := h
  exact ⟨envelope, sender, hcontent, hparties, t, i, earlier, hmakes.cons a, hsent⟩

theorem PublishedBy.cons {actions : List Action} {u : Bytes} {bundle : PrekeyBundle Bytes}
    (a : Action) (h : b.PublishedBy c peerAddr s₀ actions u bundle) :
    b.PublishedBy c peerAddr s₀ (a :: actions) u bundle := by
  obtain ⟨published, hleft, huser, hverify, t, i, earlier, hmakes, hsent⟩ := h
  exact ⟨published, hleft, huser, hverify, t, i, earlier, hmakes.cons a, hsent⟩

theorem Makes.allowed {actions : List Action} {t : Task} {call : TcpServer.Call} {i : Connection}
    {earlier : List Action} (h : b.Makes c peerAddr s₀ actions t call i earlier) :
    Allowed t.job t.made call :=
  Pool.allowed (P := Allowed) (fun i frame => handleFrame_allows (peerAddr i) frame) h.2

variable (c peerAddr) in
theorem formed_after (h₀ : b.Fresh s₀.api) (actions : List Action) :
    b.Formed (b.afterFrames c peerAddr s₀ actions).shared.api := by
  refine History.after_induction
    (I := fun p : TcpServer.World b.Object => b.Formed p.shared.api) h₀.formed
    (fun a p hp => ?_) actions
  rcases Pool.shared_step (fun i => handleFrame (peerAddr i)) (exec (b.api c)) a p with
    h | ⟨i, t, call, -, -, h⟩
  · rw [h]
    exact hp
  · rw [h]
    exact (exec_effect c b call hp).1

variable (c peerAddr) in
/-- One action: nothing happens to the stores, or a frame makes a call. -/
theorem action_effect (h₀ : b.Fresh s₀.api) (a : Action) (actions : List Action) :
    (b.storesAfter c peerAddr s₀ (a :: actions) = b.storesAfter c peerAddr s₀ actions ∧
      b.accountAfter c peerAddr s₀ (a :: actions) = b.accountAfter c peerAddr s₀ actions) ∨
    ∃ i t call, a = .run i ∧ b.Makes c peerAddr s₀ (a :: actions) t call i actions ∧
      Effect c b call (b.answer c peerAddr s₀ call actions)
        (b.afterFrames c peerAddr s₀ actions).shared.api
        (b.afterFrames c peerAddr s₀ (a :: actions)).shared.api := by
  rcases Pool.shared_step (fun i => handleFrame (peerAddr i)) (exec (b.api c)) a
    (b.afterFrames c peerAddr s₀ actions) with h | ⟨i, t, call, rfl, hcalls, h⟩
  · refine Or.inl ⟨?_, ?_⟩
    · exact congrArg (fun w => b.stores w.api) h
    · exact congrArg (fun w => b.account w.api) h
  · refine Or.inr ⟨i, t, call, rfl, ⟨List.suffix_refl _, hcalls⟩, ?_⟩
    have heffect := (exec_effect c b call (formed_after c peerAddr h₀ actions)).2
    have hshared : (b.afterFrames c peerAddr s₀ (.run i :: actions)).shared =
        (exec (b.api c) call (b.afterFrames c peerAddr s₀ actions).shared).2 := h
    rw [hshared]
    exact heffect

theorem survives_of_sqlite {envelope : Envelope Bytes} (h : SqliteStore.Survives envelope) :
    b.Survives envelope := by
  cases b with
  | inMemoryServer => trivial
  | sqliteStore => exact h

theorem Fresh.stores {s : b.State} (h : b.Fresh s) (u : Bytes) :
    (b.stores s).inbox u = [] ∧ (b.stores s).bundle u = none := by
  cases b with
  | inMemoryServer =>
    obtain ⟨token, hs⟩ := h
    change (InMemoryServer.stores s.object).inbox u = [] ∧
      (InMemoryServer.stores s.object).bundle u = none
    rw [hs]
    exact ⟨rfl, rfl⟩
  | sqliteStore =>
    obtain ⟨outcome, hmacSecret, token, hs⟩ := h
    change (SqliteStore.stores s.object).inbox u = [] ∧
      (SqliteStore.stores s.object).bundle u = none
    rw [hs]
    exact ⟨rfl, rfl⟩

/-- Who put an entry into a mailbox. -/
theorem inbox_enqueued (h₀ : b.Fresh s₀.api) {actions : List Action} {u : Bytes}
    {entry : StoredEnvelope Bytes}
    (hentry : entry ∈ (b.storesAfter c peerAddr s₀ actions).inbox u) :
    b.EnqueuedBy c peerAddr s₀ actions u entry := by
  induction actions with
  | nil =>
    rw [show (b.storesAfter c peerAddr s₀ []).inbox u = [] from (h₀.stores u).1] at hentry
    cases hentry
  | cons a actions ih =>
    rcases action_effect c peerAddr h₀ a actions with h | ⟨i, t, call, rfl, hmakes, heffect⟩
    · rw [h.1] at hentry
      exact (ih hentry).cons a
    · rcases heffect.inbox hentry with h | ⟨envelope, rfl, hcontent⟩
      · exact (ih h).cons _
      · obtain ⟨-, hsurvives, sender, hsent, hparties⟩ := hmakes.allowed
        exact ⟨envelope, sender, hcontent (survives_of_sqlite hsurvives), hparties, t, i, _,
          hmakes, hsent⟩

/-- Who published a bundle. -/
theorem bundle_published (h₀ : b.Fresh s₀.api) {actions : List Action} {u : Bytes}
    {bundle : PrekeyBundle Bytes}
    (hbundle : (b.storesAfter c peerAddr s₀ actions).bundle u = some bundle) :
    b.PublishedBy c peerAddr s₀ actions u bundle := by
  induction actions generalizing bundle with
  | nil =>
    rw [show (b.storesAfter c peerAddr s₀ []).bundle u = none from (h₀.stores u).2] at hbundle
    cases hbundle
  | cons a actions ih =>
    rcases action_effect c peerAddr h₀ a actions with h | ⟨i, t, call, rfl, hmakes, heffect⟩
    · rw [h.1] at hbundle
      exact (ih hbundle).cons a
    · rcases heffect.bundle hbundle with ⟨before, hbefore, hleft⟩ | ⟨rfl, huser, hverify⟩
      · obtain ⟨published, hleft', hpublished⟩ := (ih hbefore).cons (.run i)
        obtain ⟨ecs, pqs, hecs, hpqs, rfl⟩ := hleft
        obtain ⟨ecs', pqs', hecs', hpqs', rfl⟩ := hleft'
        exact ⟨published, ⟨ecs, pqs, hecs.trans hecs', hpqs.trans hpqs', rfl⟩, hpublished⟩
      · refine ⟨bundle, ⟨_, _, List.suffix_refl _, List.suffix_refl _, rfl⟩, huser, hverify, t, i,
          actions, hmakes, ?_⟩
        exact huser ▸ hmakes.allowed.2

/-- A call that changes something is one of a frame that may. -/
theorem Effect.cleared {call : TcpServer.Call} {r : Except String call.Answer} {s s' : b.State}
    (h : Effect c b call r s s') {frame : Frame} {made : Made} (hallowed : Allowed frame made call)
    (hchanges : b.stores s' ≠ b.stores s ∨ b.account s' ≠ b.account s) : Cleared frame made := by
  cases call with
  | publishBundle _ => exact hallowed.1
  | acquireBundleForSession _ => exact hallowed
  | enqueueEnvelope _ _ => exact hallowed.1
  | drainInbox _ _ => exact hallowed.1
  | registerTransportIdentity _ => exact hallowed
  | _ => exact absurd hchanges (by simp [h.1, h.2])

variable (c b peerAddr s₀)

/-- What the server has seen to over a history of frames. -/
structure Authorised (actions : List Action) : Prop where
  /-- An envelope in a mailbox is addressed to its owner and comes from its sender. -/
  inbox : ∀ u, ∀ entry ∈ (b.storesAfter c peerAddr s₀ actions).inbox u,
    b.EnqueuedBy c peerAddr s₀ actions u entry
  /-- Entries are returned to their owner and deleted by their owner. -/
  taken : ∀ i earlier, .run i :: earlier <:+ actions →
    ∀ u, ∀ entry ∈ (b.storesAfter c peerAddr s₀ earlier).inbox u,
      entry ∉ (b.storesAfter c peerAddr s₀ (.run i :: earlier)).inbox u ∨
        (∃ t call, (b.afterFrames c peerAddr s₀ earlier).Calls i t call ∧
          entry ∈ returned call (b.answer c peerAddr s₀ call earlier)) →
      ∃ t, (b.afterFrames c peerAddr s₀ earlier).task.get i = some t ∧ SentBy t.job t.made u
  /-- A bundle was published by its owner, and its signatures verify. -/
  bundle : ∀ u bundle, (b.storesAfter c peerAddr s₀ actions).bundle u = some bundle →
    verifyPrekeyBundleSignatures c.toCrypto bundle = .ok () ∧
      b.PublishedBy c peerAddr s₀ actions u bundle
  /-- What changes a bundle, a mailbox or an account is a frame that decodes and whose token, if
  its command needs one, has been accepted. -/
  cleared : ∀ a earlier, a :: earlier <:+ actions →
    (b.storesAfter c peerAddr s₀ (a :: earlier) ≠ b.storesAfter c peerAddr s₀ earlier ∨
      b.accountAfter c peerAddr s₀ (a :: earlier) ≠ b.accountAfter c peerAddr s₀ earlier) →
    ∃ i t, a = .run i ∧ (b.afterFrames c peerAddr s₀ earlier).task.get i = some t ∧
      Cleared t.job t.made

variable {s₀}

/-- **The server authorises what it does**, for every history of frames on any number of
connections. -/
theorem frames_authorised (h₀ : b.Fresh s₀.api) (actions : List Action) :
    b.Authorised c peerAddr s₀ actions where
  inbox u entry hentry := inbox_enqueued h₀ hentry
  taken i earlier hsuffix u entry hentry htaken := by
    have hdrain : ∃ t ack, (b.afterFrames c peerAddr s₀ earlier).Calls i t (.drainInbox u ack) := by
      rcases htaken with hdeleted | ⟨t, call, hcalls, hreturned⟩
      · rcases action_effect c peerAddr h₀ (.run i) earlier with
          h | ⟨j, t, call, hj, hmakes, heffect⟩
        · rw [h.1] at hdeleted
          exact absurd hentry hdeleted
        · obtain rfl := Pool.Action.run.inj hj
          obtain ⟨ack, rfl⟩ := heffect.deleted hentry hdeleted
          exact ⟨t, ack, hmakes.2⟩
      · -- the mailbox that was asked for is the one the entry is addressed to
        have heffect := (exec_effect c b call (formed_after c peerAddr h₀ earlier)).2
        obtain ⟨userId, ack, rfl, hentry'⟩ := heffect.returned hreturned
        obtain ⟨envelope, sender, hcontent, hparties, -⟩ := inbox_enqueued h₀ hentry
        obtain ⟨envelope', sender', hcontent', hparties', -⟩ := inbox_enqueued h₀ hentry'
        obtain rfl := Except.ok.inj (hcontent.symm.trans hcontent')
        obtain ⟨-, rfl⟩ := Prod.mk.inj (Except.ok.inj (hparties.symm.trans hparties'))
        exact ⟨t, ack, hcalls⟩
    obtain ⟨t, ack, hcalls⟩ := hdrain
    have hmakes : b.Makes c peerAddr s₀ actions t (.drainInbox u ack) i earlier :=
      ⟨hsuffix, hcalls⟩
    exact ⟨t, hcalls.1, hmakes.allowed.2⟩
  bundle u bundle hbundle := by
    have hpublished := bundle_published h₀ hbundle
    refine ⟨?_, hpublished⟩
    obtain ⟨published, ⟨ecs, pqs, -, -, rfl⟩, -, hverify, -⟩ := hpublished
    exact hverify
  cleared a earlier hsuffix hchanges := by
    rcases action_effect c peerAddr h₀ a earlier with h | ⟨i, t, call, rfl, hmakes, heffect⟩
    · exact absurd hchanges (by simp [h.1, h.2])
    · exact ⟨i, t, rfl, hmakes.2.1, heffect.cleared hmakes.allowed hchanges⟩

end Histories

namespace Alice

/-- A frame arrives on connection 0 and is handled to its end. -/
def handled (command : UInt32) (payload : Result Bytes) : List Action :=
  [.run 0, .run 0, .run 0, .run 0, .start 0 ⟨command, payload.toOption.getD []⟩]

def letter : Envelope Bytes :=
  .fromChat ⟨text "session", user, text "bob", ⟨none, 0, 0, 0⟩, [], [7]⟩

/-- Alice registers, authenticates and writes to Bob. -/
def frames : List Action :=
  handled TcpCommand.kEnqueueEnvelope (do
    let request ← serializeEnqueueRequest ⟨text "bob", letter⟩
    serializeAuthenticatedPayload ⟨drawn 2 32, request⟩) ++
  handled TcpCommand.kAuthFinish (serializeAuthFinishRequest finish) ++
  handled TcpCommand.kAuthBegin (serializeAuthBeginRequest ⟨user, clientNonce⟩) ++
  handled TcpCommand.kRegisterTransportIdentity (serializeRegisterRequest (registration [5]))

def server : TcpServer sqliteStore.Object := TcpServer.init store {}

end Alice

theorem frames_authorised_alice :
    ((sqliteStore.storesAfter ServerCrypto.transparent (fun _ => text "10.0.0.1") Alice.server
      Alice.frames).inbox (text "bob")).length = 1 ∧
    sqliteStore.Authorised ServerCrypto.transparent (fun _ => text "10.0.0.1") Alice.server
      Alice.frames := by
  refine ⟨by decide +kernel, ?_⟩
  exact frames_authorised ServerCrypto.transparent sqliteStore _ Alice.fresh_store Alice.frames

end Backend

end PqChat
