/-
# What a client makes of its mailbox

A client drains its mailbox page by page, handles the envelopes, and acknowledges with the next
drain what it has handled; requests and answers get lost, envelopes cannot be handled, and the
process may stop on its way and start again from its state file.

In every state of every run the client is a consumer behind cumulative acknowledgements
(`InboxRun.sound`).  Three things follow, on either server.

* A process handles with success a stretch of what has arrived, in order and without a gap, and
  returns exactly the plaintexts of it; the stretch begins behind what the processes before it
  have handled (`Processed`).
* The server deletes nothing that has not been handled (`NothingLost`).
* If a drain returns nothing, everything that has arrived has been handled.

A run is made of the steps of `ProcessInbox`, of calls of the other member functions between two
calls of it, of calls of the server by others, and of processes that stop and are created.
-/
import PqChat.Client.Processing
import PqChat.Service.Mailbox
import PqChat.Service.Reservation
import PqChat.Session.Agreement

set_option linter.unusedSectionVars false

namespace PqChat

variable {B S : Type}

/-! ## 1. Runs -/

section Runs

variable [ByteString B] [DecidableEq B]

namespace Desk

/-- A new process.  What has been handled so far the processes before it have handled. -/
def create (c : Crypto B) (userId : B) (d : Desk B S) : Desk B S :=
  let created := PqChat.create c userId d.world
  { world := created.2
    phase := if created.1.isOk then .idle else .down
    plaintexts := []
    handled := []
    earlier := d.earlier ++ d.handled
    output := [] }

/-- The process stops on its way. -/
def stop (server : S) (disk : Option (Client B)) (d : Desk B S) : Desk B S where
  world := { d.world with server := server, disk := disk }
  phase := .down
  plaintexts := []
  handled := []
  earlier := d.earlier ++ d.handled
  output := []

/-- A call of another member function. -/
def call (c : Crypto B) (server : ServerApi B S) (op : Op B) (d : Desk B S) : Desk B S :=
  { d with world := (op.run c server d.world).2 }

/-- Someone else's call of the server. -/
def visit (api : ServerApi B S) (v : Visit B) (d : Desk B (Shared B S)) :
    Desk B (Shared B S) :=
  { d with world := { d.world with server := d.world.server.visit api v } }

/-- Where a run starts. -/
def start (w : World B S) : Desk B S := ⟨w, .down, [], [], [], []⟩

end Desk

/-- Nothing has happened yet. -/
structure World.AtStart (invariant : S → Prop) (stores : S → Stores B) (userId : B)
    (w : World B (Shared B S)) : Prop where
  disk : w.disk = none
  log : w.server.log = []
  foreign : w.server.Foreign userId
  invariant : invariant w.server.base
  inbox : (stores w.server.base).inbox userId = []
  last : ∀ u, (stores w.server.base).last u = 0

/-- Some calls of the client that do not drain its mailbox. -/
abbrev Shared.Calls (api : ServerApi B S) : Shared B S → Shared B S → Prop :=
  Relation.ReflTransGen fun s s' =>
    (∃ bundle, s' = ((sharedApi api).publishBundle bundle s).2) ∨
    (∃ u, s' = ((sharedApi api).acquireBundleForSession u s).2) ∨
    ∃ u envelope, s' = ((sharedApi api).enqueueEnvelope u envelope s).2

/-- The runs of a user's client from a given start.  A process that stops on its way has made
some of its calls, and it has written nothing to the state file or something that asks for what
it asks for (`Op.run_asks`); a `DrainInbox` is a step of its own. -/
inductive InboxRun (P : Crypto B → Prop) (api : ServerApi B S) (userId : B)
    (d₀ : Desk B (Shared B S)) : Desk B (Shared B S) → Prop
  | start : InboxRun P api userId d₀ d₀
  | create {d : Desk B (Shared B S)} {c : Crypto B} (hc : P c)
    (h : InboxRun P api userId d₀ d) : InboxRun P api userId d₀ (d.create c userId)
  | next {d : Desk B (Shared B S)} {c : Crypto B} (hc : P c)
    (h : InboxRun P api userId d₀ d) : InboxRun P api userId d₀ (d.next c (sharedApi api))
  | call {d : Desk B (Shared B S)} {c : Crypto B} (hc : P c) (op : Op B)
    (hop : op ≠ .processInbox) (hidle : d.phase = .idle) (h : InboxRun P api userId d₀ d) :
    InboxRun P api userId d₀ (d.call c (sharedApi api) op)
  | stop {d : Desk B (Shared B S)} {s : Shared B S} {disk : Option (Client B)}
    (hup : d.phase ≠ .down) (hcalls : Shared.Calls api d.world.server s)
    (hdisk : disk = d.world.disk ∨ ∃ saved, disk = some saved ∧ saved.asks = d.world.client.asks)
    (h : InboxRun P api userId d₀ d) : InboxRun P api userId d₀ (d.stop s disk)
  | visit {d : Desk B (Shared B S)} (v : Visit B) (hv : v.Foreign userId)
    (h : InboxRun P api userId d₀ d) : InboxRun P api userId d₀ (d.visit api v)

/-! ## 2. The invariant -/

namespace Desk

section Defs

variable (invariant : S → Prop) (stores : S → Stores B) (userId : B)
  (d : Desk B (Shared B S))

/-- The entries that this process has handled. -/
def mine : List (StoredEnvelope B) := d.handled.map fun h => h.1.stored

/-- The entries that the processes before have handled. -/
def others : List (StoredEnvelope B) := d.earlier.map fun h => h.1.stored

/-- All entries that have been handled. -/
def ever : List (StoredEnvelope B) := d.others ++ d.mine

/-- This process has handled a stretch of the log, and the others what is before it. -/
def Reads (ack : Option UInt64) : Prop :=
  ∃ pre, pre ⊆ d.others ∧ ReadsAt stores userId d.world.server (pre ++ d.mine) ack

/-- What is said about the client depends on where it is. -/
def Place : Prop :=
  match d.phase with
  | .down => d.handled = []
  | .idle => ∃ ack, d.world.client.asks = (userId, ack) ∧ d.Reads stores userId ack
  | .draining _ ack => d.world.client.asks = (userId, ack) ∧ d.Reads stores userId ack
  | .handling _ items maxAckable => d.world.client.asks = (userId, none) ∧
      ∃ pre, pre ⊆ d.others ∧
        ReadsAt stores userId d.world.server (pre ++ d.mine) maxAckable ∧
        ∃ rest, Consumer.acked StoredEnvelope.number (maxAckable.map UInt64.toNat)
          ((stores d.world.server.base).inbox userId) = items.map InboxEnvelope.stored ++ rest
  | .closing _ => ∃ ack, d.world.client.asks = (userId, ack) ∧ d.Reads stores userId ack

/-- What a client may ask for. -/
def Allowed (asks : B × Option UInt64) : Prop :=
  asks.1 = userId ∧ ∀ a, asks.2 = some a → Covered stores userId d.ever d.world.server.log a

/-- The invariant of runs. -/
structure Sound : Prop where
  mailbox : Mailbox invariant stores userId d.world.server
  deleted : ∀ removed, deliveries stores userId d.world.server.log =
    removed ++ (stores d.world.server.base).inbox userId → removed ⊆ d.ever
  disk : ∀ saved, d.world.disk = some saved → d.Allowed stores userId saved.asks
  place : d.Place stores userId

end Defs

variable {invariant : S → Prop} {stores : S → Stores B} {userId : B} {d : Desk B (Shared B S)}
  {ack : Option UInt64}

theorem done_subset_ever {pre : List (StoredEnvelope B)} (hpre : pre ⊆ d.others) :
    pre ++ d.mine ⊆ d.ever :=
  List.append_subset.mpr
    ⟨List.subset_append_of_subset_left _ hpre, List.subset_append_right _ _⟩

theorem Reads.deleted (h : d.Reads stores userId ack) {removed : List (StoredEnvelope B)}
    (hremoved : deliveries stores userId d.world.server.log =
      removed ++ (stores d.world.server.base).inbox userId) : removed ⊆ d.ever := by
  obtain ⟨pre, hpre, hread⟩ := h
  exact List.Subset.trans (hread.removed_prefix hremoved).subset (done_subset_ever hpre)

theorem Reads.allowed (h : d.Reads stores userId ack) : d.Allowed stores userId (userId, ack) := by
  obtain ⟨pre, hpre, hread⟩ := h
  exact ⟨rfl, fun a ha => (hread.covered ha).mono (done_subset_ever hpre)⟩

section Follows

variable {w : World B (Shared B S)} (hs : Mailbox invariant stores userId w.server)
  (hf : Follows stores userId d.world.server w.server)
include hs hf

theorem Reads.follows (h : d.Reads stores userId ack) :
    ({ d with world := w } : Desk B (Shared B S)).Reads stores userId ack := by
  obtain ⟨pre, hpre, hread⟩ := h
  exact ⟨pre, hpre, hread.follows hs hf⟩

theorem Place.follows (h : d.Place stores userId) (hclient : w.client.asks = d.world.client.asks) :
    ({ d with world := w } : Desk B (Shared B S)).Place stores userId := by
  have hready : (∃ ack, d.world.client.asks = (userId, ack) ∧ d.Reads stores userId ack) →
      ∃ ack, w.client.asks = (userId, ack) ∧
        ({ d with world := w } : Desk B (Shared B S)).Reads stores userId ack := by
    intro h
    obtain ⟨ack, hnow, hreads⟩ := h
    exact ⟨ack, hclient.trans hnow, hreads.follows hs hf⟩
  obtain ⟨world, phase, plaintexts, handled, earlier, output⟩ := d
  cases phase with
  | down => exact h
  | idle => exact hready h
  | draining passes ack =>
    obtain ⟨hnow, hreads⟩ := h
    exact ⟨hclient.trans hnow, hreads.follows hs hf⟩
  | handling passes items maxAckable =>
    obtain ⟨hnow, pre, hpre, hread, rest, hrest⟩ := h
    have hread' := hread.follows hs hf
    refine ⟨hclient.trans hnow, pre, hpre, hread', ?_⟩
    -- what has come is at the end of what is left
    obtain ⟨new, harrived, hinbox⟩ := hf
    have hsplit := hread'.split
    rw [harrived, hread.split, List.append_assoc] at hsplit
    refine ⟨rest ++ new, ?_⟩
    rw [← List.append_assoc, ← hrest]
    exact (List.append_cancel_left hsplit).symm
  | closing e => exact hready h

/-- Nothing but arrivals since then. -/
theorem Sound.follows (h : d.Sound invariant stores userId)
    (hdisk : ∀ saved, w.disk = some saved → d.Allowed stores userId saved.asks)
    (hclient : w.client.asks = d.world.client.asks) :
    ({ d with world := w } : Desk B (Shared B S)).Sound invariant stores userId := by
  refine ⟨hs, fun removed hremoved => ?_, fun saved hsaved => ?_,
    h.place.follows hs hf hclient⟩
  · obtain ⟨new, harrived, hinbox⟩ := hf
    have hbefore : deliveries stores userId d.world.server.log ++ new =
        (removed ++ (stores d.world.server.base).inbox userId) ++ new := by
      rw [← harrived, List.append_assoc, ← hinbox]
      exact hremoved
    exact h.deleted removed (List.append_cancel_right hbefore)
  · obtain ⟨huser, hcovered⟩ := hdisk saved hsaved
    exact ⟨huser, fun a ha => (hcovered a ha).grows hs hf.log_prefix⟩

end Follows

/-- The invariant, as long as ids are numbers that `SqliteStore` can compare. -/
structure Inv (invariant : S → Prop) (stores : S → Stores B) (userId : B)
    (d : Desk B (Shared B S)) : Prop where
  foreign : d.world.server.Foreign userId
  sound : d.world.server.log.length < 2 ^ 63 → d.Sound invariant stores userId

/-- Between two passes and between two calls. -/
theorem Place.ready (h : d.Place stores userId)
    (hphase : d.phase = .idle ∨ ∃ e, d.phase = .closing e) :
    ∃ ack, d.world.client.asks = (userId, ack) ∧ d.Reads stores userId ack := by
  rcases hphase with hphase | ⟨e, hphase⟩
  · rw [Place, hphase] at h
    exact h
  · rw [Place, hphase] at h
    exact h

/-- A computation that drains nothing and does not touch what the client asks for. -/
theorem Inv.quiet (h : d.Inv invariant stores userId)
    (hphase : d.phase = .idle ∨ ∃ e, d.phase = .closing e) {P : Crypto B → Prop}
    {w : World B (Shared B S)}
    (hm : Moves P (Shared.observer userId (Grown invariant stores userId d.world.server))
      d.world w)
    (hasks : ∀ now allowed, allowed now → d.world.Asks now allowed → w.Asks now allowed) :
    ({ d with world := w } : Desk B (Shared B S)).Inv invariant stores userId := by
  obtain ⟨hforeign, hgrown⟩ := hm.observed
    ⟨h.foreign, le_rfl, fun hfew => ⟨(h.sound hfew).mailbox, .refl _⟩⟩
  refine ⟨hforeign, fun hfew => ?_⟩
  have hsound := h.sound (hgrown.length.trans_lt hfew)
  obtain ⟨hs, hf⟩ := hgrown.follows hfew
  obtain ⟨ack, hnow, hreads⟩ := hsound.place.ready hphase
  obtain ⟨hclient, hdisk⟩ := hasks (userId, ack) (d.Allowed stores userId) hreads.allowed
    ⟨hnow, hsound.disk⟩
  exact hsound.follows hs hf hdisk (hclient.trans hnow.symm)

section Service

variable {c : Crypto B} {api : ServerApi B S} {survives : Envelope B → Prop}
  (hservice : StoreService c api invariant stores survives)
include hservice

/-- A call of someone else. -/
theorem Inv.visit (h : d.Inv invariant stores userId) {v : Visit B} (hv : v.Foreign userId) :
    (d.visit api v).Inv invariant stores userId := by
  have hgrown : Grown invariant stores userId d.world.server (d.world.server.visit api v) :=
    Grown.visit hservice ⟨le_rfl, fun hfew => ⟨(h.sound hfew).mailbox, .refl _⟩⟩ hv
  refine ⟨?_, fun hfew => ?_⟩
  · rw [Desk.visit, Shared.Foreign, Shared.visit_visits]
    exact h.foreign
  · have hsound := h.sound (hgrown.length.trans_lt hfew)
    obtain ⟨hs, hf⟩ := hgrown.follows hfew
    exact hsound.follows hs hf hsound.disk rfl

variable {e : Crypto B}

/-- A call of another member function. -/
theorem Inv.call (h : d.Inv invariant stores userId) (hidle : d.phase = .idle) {op : Op B}
    (hop : op ≠ .processInbox) :
    (d.call e (sharedApi api) op).Inv invariant stores userId := by
  have hrun : op.run e (sharedApi api) = op.run e (sharedApi api).undrained := by
    cases op with
    | processInbox => exact absurd rfl hop
    | _ => rfl
  have hm : Moves (fun _ => True)
      (Shared.observer userId (Grown invariant stores userId d.world.server)) d.world
      (op.run e (sharedApi api).undrained d.world).2 :=
    op.run_moves (c := e) trivial (grown_quiet hservice) (fun _ => grown_enqueues hservice)
      (fun _ => trivial) d.world
  rw [← hrun] at hm
  exact h.quiet (Or.inl hidle) hm fun now allowed hnow => Op.run_asks hnow hop d.world

/-- The call of `ProcessInbox` returns. -/
theorem Inv.close (h : d.Inv invariant stores userId) {firstError : Option String}
    (hphase : d.phase = .closing firstError) :
    (d.close e (sharedApi api) firstError).Inv invariant stores userId := by
  let w := (closeInbox e (sharedApi api) d.plaintexts firstError d.world).2
  have hm : Moves (fun _ => True)
      (Shared.observer userId (Grown invariant stores userId d.world.server)) d.world w :=
    closeInbox_moves (c := e) trivial (grown_quiet hservice) d.plaintexts firstError _
  have hquiet := h.quiet (Or.inr ⟨_, hphase⟩) hm fun now allowed hnow =>
    closeInbox_asks hnow _ _ d.world
  refine ⟨hquiet.foreign, fun hfew => ?_⟩
  have hsound := hquiet.sound hfew
  have hready := hsound.place.ready (Or.inr ⟨_, hphase⟩)
  exact ⟨hsound.mailbox, hsound.deleted, hsound.disk, hready⟩

omit hservice in
/-- What the client asks for is allowed. -/
theorem Place.allowed (h : d.Place stores userId) (hup : d.phase ≠ .down) :
    d.Allowed stores userId d.world.client.asks := by
  have hnone : d.Allowed stores userId (userId, none) := ⟨rfl, fun _ h => by cases h⟩
  cases hphase : d.phase with
  | down => exact absurd hphase hup
  | draining passes ack =>
    rw [Place, hphase] at h
    rw [h.1]
    exact h.2.allowed
  | handling passes items maxAckable =>
    rw [Place, hphase] at h
    rw [h.1]
    exact hnone
  | _ =>
    obtain ⟨ack, hnow, hreads⟩ := h.ready (by simp [hphase])
    rw [hnow]
    exact hreads.allowed

/-- The process stops on its way. -/
theorem Inv.stop (h : d.Inv invariant stores userId) (hup : d.phase ≠ .down) {s : Shared B S}
    {disk : Option (Client B)} (hcalls : Shared.Calls api d.world.server s)
    (hdisk : disk = d.world.disk ∨
      ∃ saved, disk = some saved ∧ saved.asks = d.world.client.asks) :
    (d.stop s disk).Inv invariant stores userId := by
  obtain ⟨hforeign, hgrown⟩ : s.Foreign userId ∧
      Grown invariant stores userId d.world.server s := by
    induction hcalls with
    | refl => exact ⟨h.foreign, le_rfl, fun hfew => ⟨(h.sound hfew).mailbox, .refl _⟩⟩
    | tail _ hcall ih =>
      rcases hcall with ⟨bundle, rfl⟩ | ⟨u, rfl⟩ | ⟨u, envelope, rfl⟩
      · exact (grown_quiet hservice).publishBundle bundle _ ih
      · exact (grown_quiet hservice).acquireBundle u _ ih
      · exact grown_enqueues hservice u envelope _ ih
  refine ⟨hforeign, fun hfew => ?_⟩
  have hsound := h.sound (hgrown.length.trans_lt hfew)
  obtain ⟨hs, hf⟩ := hgrown.follows hfew
  let w : World B (Shared B S) := { d.world with server := s, disk := disk }
  have hsaved : ∀ saved, w.disk = some saved → d.Allowed stores userId saved.asks := by
    intro saved hsaved
    rcases hdisk with hsame | ⟨saved', hwritten, hasks⟩
    · exact hsound.disk saved (hsame.symm.trans hsaved)
    · obtain rfl := Option.some.inj (hwritten.symm.trans hsaved)
      rw [hasks]
      exact hsound.place.allowed hup
  have hnow : ({ d with world := w } : Desk B (Shared B S)).Sound invariant stores userId :=
    hsound.follows hs hf hsaved rfl
  have hever : (d.stop s disk).ever = d.ever := by
    rw [ever, ever, others, others, Desk.stop, List.map_append]
    exact List.append_nil _
  refine ⟨hs, fun removed hremoved => ?_, fun saved hsaved => ?_, rfl⟩
  · rw [hever]
    exact hnow.deleted removed hremoved
  · rw [Allowed, hever]
    exact hnow.disk saved hsaved

/-- A page is asked for. -/
theorem Inv.drain (h : d.Inv invariant stores userId) {passes : Nat}
    (hphase : d.phase = .draining (passes + 1) ack) :
    (d.drain (sharedApi api) passes ack).Inv invariant stores userId := by
  rcases hr : (sharedApi api).drainInbox d.world.client.userId ack d.world.server with ⟨r, s⟩
  have hforeign : s.Foreign userId := by
    have hafter : (Shared.call api (fun _ => Deed.other)
        (api.drainInbox d.world.client.userId ack) d.world.server).2.Foreign userId :=
      foreign_call _ _ h.foreign
    rwa [show Shared.call api _ _ _ = (r, s) from hr] at hafter
  -- what is known of the new server
  have hdrained : s.log.length < 2 ^ 63 → d.Sound invariant stores userId ∧
      d.world.client.asks = (userId, ack) ∧ ∃ pre, pre ⊆ d.others ∧
        DrainedAt invariant stores userId d.world.server (pre ++ d.mine) ack r s := by
    intro hfew
    have hlength := length_log_call hservice d.world.client.userId ack h.foreign
      fun hfew => (h.sound hfew).mailbox
    rw [hr] at hlength
    have hsound := h.sound (hlength.trans_lt hfew)
    have hplace := hsound.place
    rw [Place, hphase] at hplace
    obtain ⟨hnow, pre, hpre, hread⟩ := hplace
    rw [show d.world.client.userId = userId from congrArg Prod.fst hnow] at hr
    have hcall := hread.call hservice hsound.mailbox h.foreign (by rw [hr]; exact hfew)
    rw [Proc.wp, hr] at hcall
    exact ⟨hsound, hnow, pre, hpre, hcall⟩
  have hkept : s.log.length < 2 ^ 63 → Mailbox invariant stores userId s ∧
      (∀ removed, deliveries stores userId s.log =
        removed ++ (stores s.base).inbox userId → removed ⊆ d.ever) ∧
      ∀ saved, d.world.disk = some saved → saved.asks.1 = userId ∧
        ∀ a, saved.asks.2 = some a → Covered stores userId d.ever s.log a := by
    intro hfew
    obtain ⟨hsound, -, pre, hpre, hd⟩ := hdrained hfew
    refine ⟨hd.mailbox, fun removed hremoved => ?_, fun saved hsaved => ?_⟩
    · exact List.Subset.trans (hd.reads.removed_prefix hremoved).subset (done_subset_ever hpre)
    · obtain ⟨huser, hcovered⟩ := hsound.disk saved hsaved
      exact ⟨huser, fun a ha => (hcovered a ha).grows hd.mailbox hd.log⟩
  cases r with
  | error e =>
    rw [drain_of_error hr]
    refine ⟨hforeign, fun hfew => ?_⟩
    obtain ⟨hsound, hnow, pre, hpre, hd⟩ := hdrained hfew
    obtain ⟨hs, hdeleted, hdisk⟩ := hkept hfew
    refine ⟨hs, hdeleted, hdisk, ?_⟩
    obtain ⟨huser, hpending⟩ := Prod.ext_iff.mp hnow
    have hack : ack.or d.world.client.pendingInboxAckUpToId = ack := by
      rw [show d.world.client.pendingInboxAckUpToId = ack from hpending]
      cases ack <;> rfl
    have hasks : (d.world.client.userId, ack.or d.world.client.pendingInboxAckUpToId) =
        (userId, ack) := Prod.ext huser hack
    rw [Place]
    by_cases hempty : d.plaintexts = []
    · rw [if_pos hempty]
      exact ⟨ack, hasks, pre, hpre, hd.reads⟩
    · rw [if_neg hempty]
      exact ⟨ack, hasks, pre, hpre, hd.reads⟩
  | ok items =>
    rw [drain_of_ok hr]
    refine ⟨hforeign, fun hfew => ?_⟩
    obtain ⟨hsound, hnow, pre, hpre, hd⟩ := hdrained hfew
    obtain ⟨hs, hdeleted, hdisk⟩ := hkept hfew
    refine ⟨hs, hdeleted, hdisk, ?_⟩
    obtain ⟨hread, rest, hrest⟩ := hd.page items rfl
    have huser : d.world.client.userId = userId := congrArg Prod.fst hnow
    have hasks : (d.world.client.userId, (none : Option UInt64)) = (userId, none) := by
      rw [huser]
    rw [Place]
    by_cases hempty : items = []
    · rw [if_pos hempty]
      exact ⟨none, hasks, pre, hpre, hread⟩
    · rw [if_neg hempty]
      exact ⟨hasks, pre, hpre, hread, rest, hrest.symm⟩

omit hservice

/-- An observer of a computation that does not call the server. -/
def still {S : Type} : Observer S := ⟨Eq, Eq, True, fun _ => rfl⟩

theorem moves_still {P : Crypto B → Prop} {w w' : World B S} (h : Moves P still w w') :
    w'.server = w.server := by
  induction h with
  | refl => rfl
  | tail _ hm ih =>
    cases hm with
    | env _ _ _ hs => exact hs.symm.trans ih
    | enqueue _ hs => exact hs.symm.trans ih
    | _ => exact ih

/-- An envelope is handled. -/
theorem Inv.handle (h : d.Inv invariant stores userId) {passes : Nat} {item : InboxEnvelope B}
    {rest : List (InboxEnvelope B)} {maxAckable : Option UInt64}
    (hphase : d.phase = .handling passes (item :: rest) maxAckable) :
    (d.handle e passes item rest maxAckable).Inv invariant stores userId := by
  rcases hstatus : handleEnvelope e item.envelope d.world with ⟨r, w⟩
  have hserver : w.server = d.world.server := by
    have := moves_still (handleEnvelope_moves (P := fun _ => True) (c := e) trivial item.envelope
      d.world .refl)
    rwa [hstatus] at this
  have hplace : d.world.server.log.length < 2 ^ 63 → d.Sound invariant stores userId ∧
      (w.client.asks = (userId, none) ∧
        ∀ saved, w.disk = some saved → d.Allowed stores userId saved.asks) ∧
      ∃ pre, pre ⊆ d.others ∧
        ReadsAt stores userId d.world.server (pre ++ d.mine) maxAckable ∧
        ∃ tail, Consumer.acked StoredEnvelope.number (maxAckable.map UInt64.toNat)
          ((stores d.world.server.base).inbox userId) =
            item.stored :: (rest.map InboxEnvelope.stored ++ tail) := by
    intro hfew
    have hsound := h.sound hfew
    have hplace := hsound.place
    rw [Place, hphase] at hplace
    obtain ⟨hnow, hwhere⟩ := hplace
    have hnone : d.Allowed stores userId (userId, none) := ⟨rfl, fun _ h => by cases h⟩
    have hasks := handleEnvelope_asks (c := e) hnone item.envelope d.world ⟨hnow, hsound.disk⟩
    rw [hstatus] at hasks
    exact ⟨hsound, ⟨hasks.client, hasks.disk⟩, hwhere⟩
  obtain ⟨client, server, disk, entropy, drawn, outcome, uses, trace⟩ := w
  obtain rfl : server = d.world.server := hserver
  cases r with
  | error text =>
    have hd : d.handle e passes item rest maxAckable = { d with
        world := World.withPending
          ⟨client, d.world.server, disk, entropy, drawn, outcome, uses, trace⟩
          (maxAckable.or client.pendingInboxAckUpToId)
        phase := .closing (some text) } := by
      rw [Desk.handle, hstatus]
    rw [hd]
    refine ⟨h.foreign, fun hfew => ?_⟩
    obtain ⟨hsound, ⟨hnow, hdisk⟩, pre, hpre, hread, -⟩ := hplace hfew
    obtain ⟨huser, hpending⟩ := Prod.ext_iff.mp hnow
    have hack : maxAckable.or client.pendingInboxAckUpToId = maxAckable := by
      rw [show client.pendingInboxAckUpToId = none from hpending, Option.or_none]
    rw [hack]
    exact ⟨hsound.mailbox, hsound.deleted, hdisk, maxAckable, Prod.ext huser rfl, pre, hpre,
      hread⟩
  | ok plaintext =>
    have hd : d.handle e passes item rest maxAckable = { d with
        world := ⟨client, d.world.server, disk, entropy, drawn, outcome, uses, trace⟩
        phase := .handling passes rest (some item.inboxId)
        plaintexts := d.plaintexts ++ [plaintext]
        handled := d.handled ++ [(item, plaintext)] } := by
      rw [Desk.handle, hstatus]
    rw [hd]
    refine ⟨h.foreign, fun hfew => ?_⟩
    obtain ⟨hsound, ⟨hnow, hdisk⟩, pre, hpre, hread, tail, htail⟩ := hplace hfew
    let d' : Desk B (Shared B S) := { d with handled := d.handled ++ [(item, plaintext)] }
    have hmine : d'.mine = d.mine ++ [item.stored] := List.map_append
    have hever : d.ever ⊆ d'.ever := by
      rw [ever, ever, hmine, ← List.append_assoc]
      exact List.subset_append_left _ _
    refine ⟨hsound.mailbox, fun removed hremoved => ?_, fun saved hsaved => ?_, ?_⟩
    · exact List.Subset.trans (hsound.deleted removed hremoved) hever
    · obtain ⟨huser, hcovered⟩ := hdisk saved hsaved
      exact ⟨huser, fun a ha => (hcovered a ha).mono hever⟩
    · have hnext := hread.next htail
      rw [List.append_assoc, ← hmine] at hnext
      exact ⟨hnow, pre, hpre, hnext, tail, hread.next_acked htail⟩

theorem create_server (c : Crypto B) (userId : B) (w : World B S) :
    (PqChat.create c userId w).2.server = w.server := by
  rcases create_cases (P := fun _ => True) (v := still) (c := c) trivial userId w with
    ⟨w₁, hboot, hm⟩ | ⟨-, -, hm, -⟩
  · rw [moves_still hm]
    cases hboot with
    | load => rfl
    | identity => rfl
  · have hserver := moves_still hm
    exact hserver

/-- The process stops, wherever it is, and a new one starts. -/
theorem Inv.create (h : d.Inv invariant stores userId) :
    (d.create e userId).Inv invariant stores userId := by
  have hserver : (d.create e userId).world.server = d.world.server :=
    create_server e userId d.world
  have hever : (d.create e userId).ever = d.ever := by
    rw [ever, ever, others, others, Desk.create, List.map_append]
    exact List.append_nil _
  rcases hcreate : PqChat.create e userId d.world with ⟨r, w⟩
  rw [Desk.create, hcreate] at hserver hever ⊢
  obtain ⟨client, server, disk, entropy, drawn, outcome, uses, trace⟩ := w
  obtain rfl : server = d.world.server := hserver
  refine ⟨h.foreign, fun hfew => ?_⟩
  have hsound := h.sound hfew
  have hnone : d.Allowed stores userId (userId, none) := ⟨rfl, fun _ h => by cases h⟩
  have hasks := create_asks (c := e) hnone hsound.disk
  rw [hcreate] at hasks
  obtain ⟨⟨huser, hcovered⟩, hdisk⟩ := hasks
  refine ⟨hsound.mailbox, fun removed hremoved => ?_, fun saved hsaved => ?_, ?_⟩
  · rw [hever]
    exact hsound.deleted removed hremoved
  · rw [Allowed, hever]
    exact hdisk saved hsaved
  · cases r with
    | error text => exact rfl
    | ok u =>
      -- what has been deleted and what is to be acknowledged has been handled before
      obtain ⟨removed, hremoved⟩ := hsound.mailbox.queue.suffix
      let ack := client.pendingInboxAckUpToId.map UInt64.toNat
      have hknown : ∀ a ∈ ack, ∃ entry ∈ deliveries stores userId d.world.server.log,
          entry.number = a := by
        intro a ha
        obtain ⟨b, hb, rfl⟩ := Option.map_eq_some_iff.mp ha
        exact (hcovered b hb).known
      obtain ⟨done, hat, hdone⟩ := hsound.mailbox.queue.resume hremoved.symm hknown
      refine ⟨client.pendingInboxAckUpToId, Prod.ext huser rfl, done,
        fun entry hentry => ?_, ?_⟩
      · have hbefore : entry ∈ d.ever := by
          rcases hdone entry hentry with hgone | ⟨a, ha, hle⟩
          · exact hsound.deleted removed hremoved.symm hgone
          · obtain ⟨b, hb, rfl⟩ := Option.map_eq_some_iff.mp ha
            exact (hcovered b hb).handled entry (hat.done_prefix.subset hentry) hle
        rw [← hever, ever] at hbefore
        exact (List.append_nil _ ▸ hbefore :)
      · exact (List.append_nil done).symm ▸ hat

include hservice in
/-- **Every step of `ProcessInbox`.** -/
theorem Inv.next (h : d.Inv invariant stores userId) :
    (d.next e (sharedApi api)).Inv invariant stores userId := by
  cases hphase : d.phase with
  | down =>
    rw [Desk.next, hphase]
    exact h
  | idle =>
    rw [Desk.next, hphase]
    refine ⟨h.foreign, fun hfew => ?_⟩
    have hsound := h.sound hfew
    have hplace := hsound.place
    rw [Place, hphase] at hplace
    obtain ⟨ack, hnow, hreads⟩ := hplace
    have hpending : d.world.client.pendingInboxAckUpToId = ack := congrArg Prod.snd hnow
    refine ⟨hsound.mailbox, hsound.deleted, hsound.disk, ?_⟩
    dsimp only [Place]
    rw [hpending]
    exact ⟨hnow, hreads⟩
  | draining passes ack =>
    cases passes with
    | zero =>
      rw [Desk.next, hphase]
      refine ⟨h.foreign, fun hfew => ?_⟩
      have hsound := h.sound hfew
      have hplace := hsound.place
      rw [Place, hphase] at hplace
      exact ⟨hsound.mailbox, hsound.deleted, hsound.disk, ack, hplace⟩
    | succ passes =>
      rw [Desk.next, hphase]
      exact h.drain hservice hphase
  | handling passes items maxAckable =>
    cases items with
    | nil =>
      rw [Desk.next, hphase]
      refine ⟨h.foreign, fun hfew => ?_⟩
      have hsound := h.sound hfew
      have hplace := hsound.place
      rw [Place, hphase] at hplace
      obtain ⟨hnow, pre, hpre, hread, -⟩ := hplace
      obtain ⟨huser, hpending⟩ := Prod.ext_iff.mp hnow
      have hack : maxAckable.or d.world.client.pendingInboxAckUpToId = maxAckable := by
        rw [show d.world.client.pendingInboxAckUpToId = none from hpending, Option.or_none]
      dsimp only
      rw [hack]
      exact ⟨hsound.mailbox, hsound.deleted, hsound.disk, Prod.ext huser rfl, pre, hpre, hread⟩
    | cons item rest =>
      rw [Desk.next, hphase]
      exact h.handle hphase
  | closing firstError =>
    rw [Desk.next, hphase]
    exact h.close hservice hphase

end Service

theorem start_inv {w : World B (Shared B S)} (h : w.AtStart invariant stores userId) :
    (start w).Inv invariant stores userId := by
  have hnone : deliveries stores userId w.server.log = [] := by
    rw [h.log]
    rfl
  refine ⟨h.foreign, fun _ => ⟨⟨h.invariant, ⟨?_, ?_⟩, ?_, ?_⟩, ?_, ?_, rfl⟩⟩
  · rw [start, hnone]
    exact List.Pairwise.nil
  · rw [start, hnone, h.inbox]
  · rw [start, hnone]
    exact fun _ hentry => absurd hentry List.not_mem_nil
  · exact fun u => (h.last u).trans_le (Nat.zero_le _)
  · intro removed hremoved
    rw [start, hnone, h.inbox, List.append_nil] at hremoved
    rw [← hremoved]
    exact List.nil_subset _
  · intro saved hsaved
    rw [start, h.disk] at hsaved
    cases hsaved

end Desk

section Service

variable {P : Crypto B → Prop} {c : Crypto B} {api : ServerApi B S} {invariant : S → Prop}
  {stores : S → Stores B} {survives : Envelope B → Prop} {userId : B}
  {w : World B (Shared B S)} {d : Desk B (Shared B S)}

/-- **The invariant holds in all runs.** -/
theorem InboxRun.sound (hservice : StoreService c api invariant stores survives)
    (hstart : w.AtStart invariant stores userId) (run : InboxRun P api userId (.start w) d) :
    d.Inv invariant stores userId := by
  induction run with
  | start => exact Desk.start_inv hstart
  | create _ _ ih => exact ih.create
  | next _ _ ih => exact ih.next hservice
  | call _ _ hop hidle _ ih => exact ih.call hservice hidle hop
  | stop hup hcalls hdisk _ ih => exact ih.stop hservice hup hcalls hdisk
  | visit _ hv _ ih => exact ih.visit hservice hv

end Service

section Call

variable {P : Crypto B → Prop} {api : ServerApi B S} {userId : B} {d₀ d : Desk B (Shared B S)}

theorem InboxRun.tidy (hstart : d₀.Tidy) (run : InboxRun P api userId d₀ d) : d.Tidy := by
  induction run with
  | start => exact hstart
  | create | stop => exact ⟨rfl, fun _ => rfl⟩
  | next _ _ ih => exact ih.next
  | call | visit => rename_i ih; exact ⟨ih.returned, ih.idle⟩

theorem InboxRun.steps {c : Crypto B} (hc : P c) {d' : Desk B (Shared B S)}
    (h : d.Steps c (sharedApi api) d') (run : InboxRun P api userId d₀ d) :
    InboxRun P api userId d₀ d' := by
  induction h with
  | refl => exact run
  | tail _ hstep ih =>
    rw [hstep]
    exact .next hc ih

end Call

/-! ## 3. What follows -/

section Results

variable (stores : S → Stores B) (userId : B) (d : Desk B (Shared B S))

/-- What a process makes of the mailbox. -/
structure Processed : Prop where
  /-- What is before the stretch others have handled. -/
  stretch : ∃ pre, pre ⊆ d.others ∧ pre ++ d.mine <+: deliveries stores userId d.world.server.log
  once : ((deliveries stores userId d.world.server.log).map StoredEnvelope.number).Nodup
  returned : d.output ++ d.plaintexts = d.handled.map Prod.snd

/-- Of what has arrived only what has been handled is no longer in the mailbox. -/
def NothingLost : Prop :=
  ∃ removed, deliveries stores userId d.world.server.log =
    removed ++ (stores d.world.server.base).inbox userId ∧ removed ⊆ d.ever

variable {stores userId d} {invariant : S → Prop}

namespace Desk

theorem Place.stretch (h : d.Place stores userId) : ∃ pre, pre ⊆ d.others ∧
    pre ++ d.mine <+: deliveries stores userId d.world.server.log := by
  have hreads : ∀ ack, d.Reads stores userId ack → ∃ pre, pre ⊆ d.others ∧
      pre ++ d.mine <+: deliveries stores userId d.world.server.log := by
    intro ack hreads
    obtain ⟨pre, hpre, hread⟩ := hreads
    exact ⟨pre, hpre, hread.done_prefix⟩
  cases hphase : d.phase with
  | down =>
    rw [Place, hphase] at h
    refine ⟨[], List.nil_subset _, ?_⟩
    rw [mine, h]
    exact List.nil_prefix
  | draining passes ack =>
    rw [Place, hphase] at h
    exact hreads ack h.2
  | handling passes items maxAckable =>
    rw [Place, hphase] at h
    obtain ⟨-, pre, hpre, hread, -⟩ := h
    exact ⟨pre, hpre, hread.done_prefix⟩
  | _ =>
    obtain ⟨ack, -, hready⟩ := h.ready (by simp [hphase])
    exact hreads ack hready

theorem Sound.processed (h : d.Sound invariant stores userId) (ht : d.Tidy) :
    Processed stores userId d :=
  ⟨h.place.stretch, h.mailbox.queue.nodup, ht.returned⟩

theorem Sound.nothingLost (h : d.Sound invariant stores userId) :
    NothingLost stores userId d := by
  obtain ⟨removed, hremoved⟩ := h.mailbox.queue.suffix
  exact ⟨removed, hremoved.symm, h.deleted removed hremoved.symm⟩

/-- If nothing is left, everything has been handled. -/
theorem Sound.caught_up (h : d.Sound invariant stores userId)
    (hempty : (stores d.world.server.base).inbox userId = []) :
    deliveries stores userId d.world.server.log ⊆ d.ever :=
  h.deleted _ (by rw [hempty, List.append_nil])

/-- The loop ends without an error behind an empty page. -/
theorem drained_of_next {c : Crypto B} {server : ServerApi B S} {d : Desk B S} {passes : Nat}
    {ack : Option UInt64} (hphase : d.phase = .draining (passes + 1) ack)
    (hend : (d.next c server).phase = .closing none) :
    ∃ s, server.drainInbox d.world.client.userId ack d.world.server = (.ok [], s) ∧
      (d.next c server).world.server = s := by
  rw [Desk.next, hphase] at hend ⊢
  rcases hr : server.drainInbox d.world.client.userId ack d.world.server with ⟨e | items, s⟩
  · dsimp only at hend
    rw [drain_of_error hr] at hend
    dsimp only at hend
    split at hend
    · cases hend
    · cases hend
  · dsimp only at hend ⊢
    rw [drain_of_ok hr] at hend ⊢
    dsimp only at hend
    split at hend
    · rename_i hitems
      rw [hitems]
      exact ⟨s, rfl, rfl⟩
    · cases hend

end Desk

/-- A page is empty only if the mailbox is. -/
def ServerApi.Exhausts (api : ServerApi B S) (invariant : S → Prop) (stores : S → Stores B) :
    Prop :=
  ∀ u ack s, invariant s → Proc.wp (api.drainInbox u ack)
    (fun r s' => r = .ok [] → (stores s').inbox u = []) s

theorem Shared.call_ok {α : Type} {api : ServerApi B S} {deed : Result α → Deed B} {x : Proc S α}
    {s s' : Shared B S} {a : α} (h : Shared.call api deed x s = (.ok a, s')) :
    x (s.visited api).base = (.ok a, s'.base) := by
  rw [Shared.call] at h
  split at h
  · obtain ⟨hr, rfl⟩ := Prod.ext_iff.mp h
    exact Prod.ext hr rfl
  · cases h
  · cases h

/-- A call that is answered is in the log. -/
theorem Shared.log_of_call_ok {α : Type} {api : ServerApi B S} {deed : Result α → Deed B}
    {x : Proc S α} {s s' : Shared B S} {a : α} (h : Shared.call api deed x s = (.ok a, s')) :
    s'.log.length = (s.visited api).log.length + 1 := by
  rw [Shared.call] at h
  split at h
  · obtain ⟨-, rfl⟩ := Prod.ext_iff.mp h
    rfl
  · cases h
  · cases h

end Results

/-! ## 4. The two servers -/

theorem InMemoryServer.prefix_drainPage {entries out page : List (InboxEnvelope B)} {total : Nat}
    (h : drainPage out total entries = .ok page) : out <+: page := by
  induction entries generalizing out total with
  | nil =>
    obtain rfl := Except.ok.inj h
    exact List.prefix_rfl
  | cons entry rest ih =>
    rw [drainPage] at h
    obtain ⟨encoded, -, h⟩ := Result.bind_eq_ok.mp h
    dsimp only at h
    split at h
    · obtain rfl := Except.ok.inj h
      exact List.prefix_rfl
    · exact (List.prefix_append _ _).trans (ih h)

theorem InMemoryServer.drainPage_nil {entries : List (InboxEnvelope B)}
    (h : drainPage [] 0 entries = .ok []) : entries = [] := by
  cases entries with
  | nil => rfl
  | cons entry rest =>
    rw [drainPage] at h
    obtain ⟨encoded, -, h⟩ := Result.bind_eq_ok.mp h
    dsimp only at h
    rw [if_neg (by simp)] at h
    have hpage := prefix_drainPage h
    simp at hpage

theorem SqliteStore.prefix_drainPage {rows : List (SqliteStore.Row Bytes)}
    {out page : List (InboxEnvelope Bytes)} {total : Nat}
    (h : drainPage out total rows = .ok page) : out <+: page := by
  induction rows generalizing out total with
  | nil =>
    obtain rfl := Except.ok.inj h
    exact List.prefix_rfl
  | cons row rest ih =>
    rw [drainPage] at h
    split at h
    · obtain rfl := Except.ok.inj h
      exact List.prefix_rfl
    · obtain ⟨envelope, -, h⟩ := Result.bind_eq_ok.mp h
      exact (List.prefix_append _ _).trans (ih h)

theorem SqliteStore.drainPage_nil {rows : List (SqliteStore.Row Bytes)}
    (h : drainPage [] 0 rows = .ok []) : rows = [] := by
  cases rows with
  | nil => rfl
  | cons row rest =>
    rw [drainPage, if_neg (by simp)] at h
    obtain ⟨envelope, -, h⟩ := Result.bind_eq_ok.mp h
    have hpage := prefix_drainPage h
    simp at hpage

theorem InMemoryServer.exhausts (c : Crypto B) :
    (serverApi c).Exhausts (fun _ => True) stores := by
  intro u ack s _
  change Proc.wp (drainInbox u ack) (fun r s' => r = .ok [] → s'.stores.inbox u = []) s
  unfold drainInbox
  refine Proc.wp_get_bind ?_
  split
  · rename_i hnone
    refine Proc.wp_pure fun _ => ?_
    exact congrArg (fun l => (Option.getD l []).map InboxEnvelope.stored) hnone
  · refine Proc.wp_modify_bind (Proc.wp_ofExcept (fun e _ h => by cases h) fun page hpage h => ?_)
    obtain rfl := Except.ok.inj h
    have hafter := congrFun (Map.comp_get_set
      (fun l => (Option.getD l []).map InboxEnvelope.stored) s.inbox u []) u
    rw [Function.update_self] at hafter
    rw [drainPage_nil hpage]
    exact hafter

theorem SqliteStore.exhausts (c : Crypto Bytes) :
    (serverApi c).Exhausts SqliteStore.Ordered stores := by
  intro u ack s hs
  refine Proc.wp_mono (drainInbox_spec u ack hs) fun r s' h hr => ?_
  obtain ⟨htables, hpage⟩ := h.2 [] hr
  have hrows : ((acked u ack s.db.tables.inbox).of u).take kMaxDrainInboxBatchItems = [] :=
    drainPage_nil hpage
  have hnone : (acked u ack s.db.tables.inbox).of u = [] :=
    (List.take_eq_nil_iff.mp hrows).resolve_left (by decide)
  have hinbox : s'.stores.inbox u =
      ((acked u ack s.db.tables.inbox).of u).map Row.stored := by
    change (s'.db.tables.inbox.of u).map Row.stored = _
    rw [htables]
  rw [hinbox, hnone, List.map_nil]

section CaughtUp

variable {P : Crypto B → Prop} {c : Crypto B} {api : ServerApi B S} {invariant : S → Prop}
  {stores : S → Stores B} {survives : Envelope B → Prop} {userId : B}
  {w : World B (Shared B S)} {d : Desk B (Shared B S)}

/-- An empty page ends the loop when everything has been handled. -/
theorem InboxRun.caught_up (hservice : StoreService c api invariant stores survives)
    (hexhausts : api.Exhausts invariant stores) (hstart : w.AtStart invariant stores userId)
    (run : InboxRun P api userId (.start w) d) {e : Crypto B} {passes : Nat}
    {ack : Option UInt64} (hphase : d.phase = .draining (passes + 1) ack)
    (hend : (d.next e (sharedApi api)).phase = .closing none)
    (hfew : (d.next e (sharedApi api)).world.server.log.length < 2 ^ 63) :
    deliveries stores userId (d.next e (sharedApi api)).world.server.log ⊆
      (d.next e (sharedApi api)).ever := by
  have hinv := run.sound hservice hstart
  have hsound := (hinv.next hservice (e := e)).sound hfew
  refine hsound.caught_up ?_
  obtain ⟨s, hdrain, hserver⟩ := Desk.drained_of_next hphase hend
  rw [hserver] at hfew ⊢
  -- the call was made on the server as others had left it
  have hlength := length_log_call hservice d.world.client.userId ack hinv.foreign
    fun hfew => (hinv.sound hfew).mailbox
  rw [hdrain] at hlength
  have hbefore := hinv.sound (hlength.trans_lt hfew)
  have hplace := hbefore.place
  rw [Desk.Place, hphase] at hplace
  rw [show d.world.client.userId = userId from congrArg Prod.fst hplace.1] at hdrain
  have hgrown : Grown invariant stores userId d.world.server (d.world.server.visited api) :=
    Grown.visited hservice ⟨le_rfl, fun _ => ⟨hbefore.mailbox, .refl _⟩⟩ hinv.foreign
  have hanswer := Shared.call_ok hdrain
  have hvisited : (d.world.server.visited api).log.length < 2 ^ 63 := by
    have hcall := Shared.log_of_call_ok hdrain
    rw [hcall] at hfew
    exact Nat.lt_of_succ_lt hfew
  have hnone := hexhausts userId ack _ (hgrown.follows hvisited).1.invariant
  rw [Proc.wp, hanswer] at hnone
  exact hnone rfl

end CaughtUp

namespace Backend

variable (c : ServerCrypto) (b : Backend) {P : Crypto Bytes → Prop} {userId : Bytes}
  {w : World Bytes (Shared Bytes b.State)} {d : Desk Bytes (Shared Bytes b.State)}

theorem Fresh.atStart {b : Backend} {w : World Bytes (Shared Bytes b.State)}
    (hfresh : b.Fresh w.server.base) (hdisk : w.disk = none) (hlog : w.server.log = [])
    (hforeign : w.server.Foreign userId) : w.AtStart b.Ordered b.stores userId :=
  ⟨hdisk, hlog, hforeign, hfresh.ordered, (hfresh.stores userId).1, Fresh.last hfresh⟩

/-- **A process handles what arrives in order, without a gap, and once.** -/
theorem inbox_in_order (hfresh : b.Fresh w.server.base) (hdisk : w.disk = none)
    (hlog : w.server.log = []) (hforeign : w.server.Foreign userId)
    (run : InboxRun P (b.api c).toServerApi userId (.start w) d)
    (hfew : d.world.server.log.length < 2 ^ 63) : Processed b.stores userId d :=
  ((run.sound (b.storeService c) (hfresh.atStart hdisk hlog hforeign)).sound hfew).processed
    (run.tidy ⟨rfl, fun _ => rfl⟩)

/-- **A call of `ProcessInbox` returns the plaintexts of the envelopes that come next**, and if it
fails it has handled none.  It is `processInbox` as a whole, from any state of any run between two
calls. -/
theorem processInbox_returns (hfresh : b.Fresh w.server.base) (hdisk : w.disk = none)
    (hlog : w.server.log = []) (hforeign : w.server.Foreign userId)
    (run : InboxRun P (b.api c).toServerApi userId (.start w) d) (hidle : d.phase = .idle)
    {e : Crypto Bytes} (he : P e)
    (hfew : (processInbox e (sharedApi (b.api c).toServerApi) d.world).2.server.log.length <
      2 ^ 63) :
    ∃ d', InboxRun P (b.api c).toServerApi userId (.start w) d' ∧
      d.Steps e (sharedApi (b.api c).toServerApi) d' ∧ d'.phase = .idle ∧
      d'.world = (processInbox e (sharedApi (b.api c).toServerApi) d.world).2 ∧
      d.handled <+: d'.handled ∧
      d'.handled.map Prod.snd = d.handled.map Prod.snd ++
        (processInbox e (sharedApi (b.api c).toServerApi) d.world).1.toOption.getD [] ∧
      Processed b.stores userId d' := by
  have hstart := hfresh.atStart hdisk hlog hforeign
  obtain ⟨d', hsteps, hidle', hworld, houtput⟩ :
      ∃ d', d.Steps e (sharedApi (b.api c).toServerApi) d' ∧ d'.phase = .idle ∧ _ :=
    Desk.processInbox_steps hidle
  have run' := run.steps he hsteps
  rw [← hworld] at hfew
  have hsound' := (run'.sound (b.storeService c) hstart).sound hfew
  refine ⟨d', run', hsteps, hidle', hworld, Desk.Steps.handled_prefix hsteps, ?_,
    hsound'.processed (run'.tidy ⟨rfl, fun _ => rfl⟩)⟩
  -- between two calls all plaintexts have been returned
  have hreturned : ∀ {d : Desk Bytes (Shared Bytes b.State)},
      InboxRun P (b.api c).toServerApi userId (.start w) d → d.phase = .idle →
      d.handled.map Prod.snd = d.output := by
    intro d run hidle
    have htidy := run.tidy ⟨rfl, fun _ => rfl⟩
    rw [← htidy.returned, htidy.idle hidle, List.append_nil]
  rw [hreturned run' hidle', hreturned run hidle, houtput]

/-- **What has not been handled is in the mailbox.** -/
theorem inbox_nothing_lost (hfresh : b.Fresh w.server.base) (hdisk : w.disk = none)
    (hlog : w.server.log = []) (hforeign : w.server.Foreign userId)
    (run : InboxRun P (b.api c).toServerApi userId (.start w) d)
    (hfew : d.world.server.log.length < 2 ^ 63) : NothingLost b.stores userId d :=
  ((run.sound (b.storeService c) (hfresh.atStart hdisk hlog hforeign)).sound hfew).nothingLost

theorem exhausts : (b.api c).toServerApi.Exhausts b.Ordered b.stores := by
  cases b with
  | inMemoryServer => exact fun u ack s hs => InMemoryServer.exhausts c.toCrypto u ack s.object hs
  | sqliteStore => exact fun u ack s hs => SqliteStore.exhausts c.toCrypto u ack s.object hs

/-- **When a drain returns nothing, everything that has arrived has been handled.** -/
theorem inbox_caught_up (hfresh : b.Fresh w.server.base) (hdisk : w.disk = none)
    (hlog : w.server.log = []) (hforeign : w.server.Foreign userId)
    (run : InboxRun P (b.api c).toServerApi userId (.start w) d) {e : Crypto Bytes}
    {passes : Nat} {ack : Option UInt64} (hphase : d.phase = .draining (passes + 1) ack)
    (hend : (d.next e (sharedApi (b.api c).toServerApi)).phase = .closing none)
    (hfew : (d.next e (sharedApi (b.api c).toServerApi)).world.server.log.length < 2 ^ 63) :
    deliveries b.stores userId
        (d.next e (sharedApi (b.api c).toServerApi)).world.server.log ⊆
      (d.next e (sharedApi (b.api c).toServerApi)).ever :=
  run.caught_up (b.storeService c) (exhausts c b) (hfresh.atStart hdisk hlog hforeign) hphase
    hend hfew

/-! ### Bob reads what Alice writes -/

namespace BobReads

open ByteString

def crypto : Crypto Bytes := ServerCrypto.transparent.toCrypto

abbrev office (b : Backend) : ServerApi Bytes (Shared Bytes b.State) :=
  sharedApi (b.api ServerCrypto.transparent).toServerApi

/-- Alice, before she has met anyone. -/
@[irreducible] def alice : World Bytes (List (Envelope Bytes)) :=
  (PqChat.create crypto (text "alice")
    ⟨Client.blank [], [], none, fun n => n + 101, 0, fun _ => .ok, 0, []⟩).2

/-- The safety number of a client, as it is read out to its peer. -/
def safetyNumber (peer : Client Bytes) : Bytes :=
  ((computeSafetyNumber crypto peer.userId peer.identitySignKey.publicKey
    peer.identityMldsaKey.publicKey peer.identityDhKey.publicKey).toOption).getD []

/-- What Alice writes to a peer. -/
@[irreducible] def letters (peer : Client Bytes) : List (Envelope Bytes) :=
  let server := PqChat.mailbox (some (peer.buildPrekeyBundle crypto))
  let met := ((Op.initiate peer.userId []).run crypto server alice).2
  let verified := ((Op.verifyPeer peer.userId (safetyNumber peer)).run crypto server met).2
  (initiateSession crypto server peer.userId (text "hello") verified).2.server

/-- Someone else calls. -/
abbrev visits (b : Backend) (v : Visit Bytes) (d : Desk Bytes (Shared Bytes b.State)) :
    Desk Bytes (Shared Bytes b.State) :=
  d.visit (b.api ServerCrypto.transparent).toServerApi v

/-- Bob is created. -/
@[irreducible] def created (b : Backend) : Desk Bytes (Shared Bytes b.State) :=
  (Desk.start (Publisher.start b)).create crypto (text "bob")

/-- Bob publishes. -/
@[irreducible] def published (b : Backend) : Desk Bytes (Shared Bytes b.State) :=
  (created b).call crypto (office b) .publish

/-- Alice publishes, and Bob comes to know her. -/
@[irreducible] def met (b : Backend) : Desk Bytes (Shared Bytes b.State) :=
  (visits b (.publish (alice.client.buildPrekeyBundle crypto)) (published b)).call crypto (office b)
    (.initiate (text "alice") (text "hi"))

/-- Bob verifies Alice. -/
@[irreducible] def ready (b : Backend) : Desk Bytes (Shared Bytes b.State) :=
  (met b).call crypto (office b) (.verifyPeer (text "alice") (safetyNumber alice.client))

/-- Alice has written, and Bob has taken a number of steps. -/
def after (b : Backend) : Nat → Desk Bytes (Shared Bytes b.State)
  | 0 => (letters (ready b).world.client).foldl
      (fun d letter => visits b (.enqueue (text "bob") letter) d) (ready b)
  | n + 1 => (after b n).next crypto (office b)

/-- The runs of Bob's client. -/
abbrev Runs (b : Backend) : Desk Bytes (Shared Bytes b.State) → Prop :=
  InboxRun (· = crypto) (b.api ServerCrypto.transparent).toServerApi (text "bob")
    (.start (Publisher.start b))

theorem runs_call {b : Backend} {d : Desk Bytes (Shared Bytes b.State)} (op : Op Bytes)
    (hop : op ≠ .processInbox) (hidle : d.phase = .idle) (h : Runs b d) :
    Runs b (d.call crypto (office b) op) :=
  .call (P := (· = crypto)) rfl op hop hidle h

theorem runs_ready (b : Backend) : Runs b (ready b) ∧ (ready b).phase = .idle := by
  have hcreated : Runs b (created b) := by
    unfold created
    exact .create rfl .start
  obtain ⟨hmemory, hstore, halice⟩ : (created inMemoryServer).phase = .idle ∧
      (created sqliteStore).phase = .idle ∧ alice.client.userId ≠ text "bob" := by decide +kernel
  have hup : (created b).phase = .idle := by
    cases b with
    | inMemoryServer => exact hmemory
    | sqliteStore => exact hstore
  have hpublished : Runs b (published b) ∧ (published b).phase = .idle := by
    unfold published
    exact ⟨runs_call .publish (fun h => by cases h) hup hcreated, hup⟩
  have hmet : Runs b (met b) ∧ (met b).phase = .idle := by
    unfold met
    exact ⟨runs_call (.initiate (text "alice") (text "hi")) (fun h => by cases h) hpublished.2
      (.visit _ halice hpublished.1), hpublished.2⟩
  unfold ready
  exact ⟨runs_call _ (fun h => by cases h) hmet.2 hmet.1, hmet.2⟩

theorem runs_after (b : Backend) (n : Nat) : Runs b (after b n) := by
  induction n with
  | zero =>
    have hfold : ∀ (letters : List (Envelope Bytes)) (d : Desk Bytes (Shared Bytes b.State)),
        Runs b d → Runs b
          (letters.foldl (fun d letter => visits b (.enqueue (text "bob") letter) d) d) := by
      intro letters
      induction letters with
      | nil => exact fun _ h => h
      | cons letter letters ih => exact fun d h => ih _ (.visit _ trivial h)
    exact hfold _ _ (runs_ready b).1
  | succ n ih => exact .next (P := (· = crypto)) rfl ih

/-- Bob drains the letter, handles it, and drains again; and so does a whole call. -/
theorem after_read : (after sqliteStore 4).phase = .draining 63 (some 1) ∧
    ((after sqliteStore 4).next crypto (office sqliteStore)).phase = .closing none ∧
    ((after sqliteStore 4).next crypto (office sqliteStore)).handled.map Prod.snd =
      [text "hello"] ∧
    (deliveries sqliteStore.stores (text "bob")
      ((after sqliteStore 4).next crypto (office sqliteStore)).world.server.log).length = 1 ∧
    ((after sqliteStore 4).next crypto (office sqliteStore)).world.server.log.length < 2 ^ 63 ∧
    (after sqliteStore 0).phase = .idle ∧
    (processInbox crypto (office sqliteStore) (after sqliteStore 0).world).1.toOption =
      some [text "hello"] ∧
    (processInbox crypto (office sqliteStore)
      (after sqliteStore 0).world).2.server.log.length < 2 ^ 63 := by
  decide +kernel

end BobReads

open BobReads ByteString in
theorem inbox_in_order_bob : (after sqliteStore 5).handled.map Prod.snd = [text "hello"] ∧
    Processed sqliteStore.stores (text "bob") (after sqliteStore 5) := by
  obtain ⟨-, -, hhandled, -, hfew, -⟩ := after_read
  exact ⟨hhandled, inbox_in_order ServerCrypto.transparent sqliteStore
    (Publisher.fresh_base _) rfl rfl (fun _ _ h => absurd h List.not_mem_nil)
    (runs_after sqliteStore 5) hfew⟩

open BobReads ByteString in
theorem processInbox_returns_bob :
    (processInbox crypto (office sqliteStore) (after sqliteStore 0).world).1.toOption =
      some [text "hello"] ∧
    ∃ d', Runs sqliteStore d' ∧ (after sqliteStore 0).Steps crypto (office sqliteStore) d' ∧
      d'.phase = .idle ∧
      d'.world = (processInbox crypto (office sqliteStore) (after sqliteStore 0).world).2 ∧
      (after sqliteStore 0).handled <+: d'.handled ∧
      d'.handled.map Prod.snd = (after sqliteStore 0).handled.map Prod.snd ++
        (processInbox crypto (office sqliteStore)
          (after sqliteStore 0).world).1.toOption.getD [] ∧
      Processed sqliteStore.stores (text "bob") d' := by
  obtain ⟨-, -, -, -, -, hidle, hreturned, hfew⟩ := after_read
  exact ⟨hreturned, processInbox_returns (P := (· = crypto)) ServerCrypto.transparent sqliteStore
    (Publisher.fresh_base _) rfl rfl (fun _ _ h => absurd h List.not_mem_nil)
    (runs_after sqliteStore 0) hidle rfl hfew⟩

open BobReads ByteString in
theorem inbox_nothing_lost_bob : (deliveries sqliteStore.stores (text "bob")
      (after sqliteStore 5).world.server.log).length = 1 ∧
    NothingLost sqliteStore.stores (text "bob") (after sqliteStore 5) := by
  obtain ⟨-, -, -, harrived, hfew, -⟩ := after_read
  exact ⟨harrived, inbox_nothing_lost ServerCrypto.transparent sqliteStore
    (Publisher.fresh_base _) rfl rfl (fun _ _ h => absurd h List.not_mem_nil)
    (runs_after sqliteStore 5) hfew⟩

open BobReads ByteString in
theorem inbox_caught_up_bob :
    deliveries sqliteStore.stores (text "bob")
        ((after sqliteStore 4).next crypto (office sqliteStore)).world.server.log ⊆
      ((after sqliteStore 4).next crypto (office sqliteStore)).ever := by
  obtain ⟨hphase, hend, -, -, hfew, -⟩ := after_read
  exact inbox_caught_up ServerCrypto.transparent sqliteStore
    (Publisher.fresh_base _) rfl rfl (fun _ _ h => absurd h List.not_mem_nil)
    (runs_after sqliteStore 4) hphase hend hfew

end Backend

end Runs

end PqChat
