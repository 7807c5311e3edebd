/-
# What a call adds to the state file

The limits of `SaveLocalState` and `LoadLocalState` are not looked at by the calls that add a peer
or a session.  What such a call adds is known before it is made: an identity that is seen for the
first time, or the session and the entries of the replay guards of a handshake.  `Room` says of the
client BEFORE the call, and of the bundle or the message that comes in, that there is room for that.
The calls of `ProcessInbox` handle one message after the other, so each of its messages is asked to
find room in the client that comes to it.

The size of the file is counted with both pools full and an acknowledgement pending
(`reserved`): keys come and go in every handshake, and a refill is not asked for room.

In a run whose steps have room the client can be stored and loaded in every state
(`RoomyRun.storable`).  `crowd` is a run in which they have not.
-/
import PqChat.Client.Capacity
import PqChat.Client.Processing
import PqChat.Session.Calls
import Mathlib.Algebra.Group.Action.Defs
import Mathlib.Algebra.Order.BigOperators.Group.Multiset

set_option linter.unusedSectionVars false

namespace PqChat

open ByteString Codec

namespace StateFile

/-! ## 1. The keys of a session -/

section Sized

variable {S : Type} {P : Crypto Bytes → Prop} {v : Observer S} {p : Provider} {env : Environment}

/-- The keys that the key schedule and the peer have put into a session have their size. -/
structure Sized (s : SessionState Bytes) : Prop where
  root : s.rootKey.length ≤ x25519KeySize
  send : s.sendChainKey.length ≤ x25519KeySize
  recv : s.recvChainKey.length ≤ x25519KeySize
  remote : s.remoteRatchetPublic.length ≤ x25519KeySize

/-- All sessions of the client. -/
def SizedClient (cl : Client Bytes) : Prop :=
  ∀ peer s, cl.sessionsByPeer.lookup peer = some s → Sized s

theorem SizedClient.withSession {cl : Client Bytes} (h : SizedClient cl) (peer : Bytes)
    {s : SessionState Bytes} (hs : Sized s) : SizedClient (cl.withSession peer s) := by
  intro peer' s' hl
  by_cases hp : peer' = peer
  · subst hp
    rw [Client.lookup_withSession] at hl
    obtain rfl := Option.some.inj hl
    exact hs
  · rw [Client.lookup_withSession_ne hp] at hl
    exact h peer' s' hl

theorem length_slice_le (b : Bytes) (i j : Nat) : (slice b i j : Bytes).length ≤ j - i :=
  List.length_take_le _ _

theorem handshakeKeys_sized {c : Crypto Bytes} {ikm transcriptHash : Bytes} {initiator : Bool}
    {keys : HandshakeKeys Bytes}
    (h : deriveHandshakeKeys c ikm transcriptHash initiator = .ok keys) :
    keys.root.length ≤ x25519KeySize ∧ keys.send.length ≤ x25519KeySize ∧
      keys.recv.length ≤ x25519KeySize := by
  obtain ⟨material, -, h⟩ := Result.bind_eq_ok.mp h
  cases initiator with
  | false =>
    obtain rfl := Except.ok.inj h
    exact ⟨length_slice_le _ _ _, length_slice_le _ _ _, length_slice_le _ _ _⟩
  | true =>
    obtain rfl := Except.ok.inj h
    exact ⟨length_slice_le _ _ _, length_slice_le _ _ _, length_slice_le _ _ _⟩

theorem ratchetKeys_sized {c : Crypto Bytes} {dh rootKey chainKey root : Bytes}
    (h : deriveRatchetRootAndChain c dh rootKey = .ok (chainKey, root)) :
    chainKey.length ≤ x25519KeySize ∧ root.length ≤ x25519KeySize := by
  obtain ⟨bytes, -, h⟩ := Result.bind_eq_ok.mp h
  obtain ⟨rfl, rfl⟩ := Prod.mk.inj (Except.ok.inj h)
  exact ⟨length_slice_le _ _ _, length_slice_le _ _ _⟩

theorem nextChain_sized {c : Crypto Bytes} {chainKey key next : Bytes} {counter : UInt64}
    (h : deriveMessageKeyAndNextChain c chainKey counter = .ok (key, next)) :
    next.length ≤ x25519KeySize := by
  obtain ⟨bytes, -, h⟩ := Result.bind_eq_ok.mp h
  obtain ⟨rfl, rfl⟩ := Prod.mk.inj (Except.ok.inj h)
  exact length_slice_le _ _ _

/-- A public key that was taken for a shared secret has its size. -/
theorem Works.peerKey_sized (h : Works p env) (hP : ∀ d, P d → d.Refines p.crypto)
    {c : Crypto Bytes} (hc : P c) {privateKey peerPublicKey secret : Bytes}
    (hdh : c.x25519SharedSecret privateKey peerPublicKey = .ok secret) :
    peerPublicKey.length ≤ x25519KeySize :=
  h.x25519SharedSecret _ _ _ ((hP c hc).x25519SharedSecret hdh)

theorem receiveChat_sized (h : Works p env) (hP : ∀ d, P d → d.Refines p.crypto)
    {c : Crypto Bytes} (hc : P c) (m : ChatMessage Bytes) {s : SessionState Bytes} (hs : Sized s) :
    Sized (receiveChat c m s).2 := by
  have hratchet : Sized (recvRatchet c m s).2 := by
    rcases recvRatchet_cases c m s with hsame | ⟨newRemote, dh, ck, rk, -, -, hdh, hmix, hrun⟩
    · rw [hsame]
      exact hs
    · obtain ⟨hck, hrk⟩ := ratchetKeys_sized hmix
      rw [hrun]
      exact ⟨hrk, hs.send, hck, h.peerKey_sized hP hc hdh⟩
  rcases receiveChat_cases c m s with ⟨e, hrun⟩ | ⟨plaintext, s₁, s', hr, hopen, hrun⟩
  · rw [hrun]
    exact hratchet
  · rw [hr] at hratchet
    obtain ⟨-, ad, key, next, -, hstep, -, rfl⟩ := hopen
    rw [hrun]
    exact ⟨hratchet.root, hratchet.send, nextChain_sized hstep, hratchet.remote⟩

/-- A key comes into a session from the key schedule, or from a peer whose key was used. -/
theorem Works.move_sized (h : Works p env) (hP : ∀ d, P d → d.Refines p.crypto)
    {w w' : World Bytes S} (hm : Move P v w w') (hw : SizedClient w.client) :
    SizedClient w'.client := by
  cases hm with
  | ratchet hc hs run =>
    obtain ⟨hck, hrk⟩ := ratchetKeys_sized run.mix_ok
    exact hw.withSession _ ⟨hrk, hck, (hw _ _ hs).recv, (hw _ _ hs).remote⟩
  | sealChat hc hs hd run =>
    exact hw.withSession _ ⟨(hw _ _ hs).root, nextChain_sized run.step_ok, (hw _ _ hs).recv,
      (hw _ _ hs).remote⟩
  | initiate hc hb run hid =>
    obtain ⟨hroot, -, hrecv⟩ := handshakeKeys_sized run.keys_ok
    have hbefore : SizedClient (w.client.remember run.fields.sessionId run.transcriptHash) := hw
    exact hbefore.withSession _ ⟨hroot, nextChain_sized run.step_ok, hrecv,
      h.peerKey_sized hP hc run.dh1_ok⟩
  | receiveChat hc hm hs => exact hw.withSession _ (receiveChat_sized h hP hc _ (hw _ _ hs))
  | @accept _ m hc hm run =>
    obtain ⟨hroot, hsend, -⟩ := handshakeKeys_sized run.keys_ok
    have hsession : Sized (responderSession w.client m run.keys run.nextChainKey) :=
      ⟨hroot, hsend, nextChain_sized run.step_ok, h.peerKey_sized hP hc run.dh2_ok⟩
    exact hw.withSession m.fromUser hsession
  | _ => exact hw

/-- **The keys of all sessions of a run have their sizes.** -/
theorem Works.reach_sized (h : Works p env) (hP : ∀ d, P d → d.Refines p.crypto)
    {w : World Bytes S} (hw : Reach P true w) : SizedClient w.client := by
  have key := hw.invariant (D := fun w => ∀ d, w.disk = some d → SizedClient d)
    (I := fun w => SizedClient w.client ∧ ∀ d, w.disk = some d → SizedClient d) ?_ ?_ ?_ ?_ ?_
  · exact (key.2 rfl).1
  · intro w hd _ d hd'
    rw [hd] at hd'
    cases hd'
  · intro w w₁ hD hb
    cases hb with
    | load saved n hdisk => exact ⟨hD saved hdisk, hD⟩
    | identity hc userId d n run => exact ⟨nofun, hD⟩
  · intro w w₁ hI hm
    refine ⟨h.move_sized hP hm hI.1, ?_⟩
    cases hm with
    | save =>
      intro d hd
      obtain rfl := Option.some.inj hd
      exact hI.1
    | _ => exact hI.2
  · exact fun w hI => hI.2
  · intro w w₁ hD hd _
    rw [hd]
    exact hD

end Sized

/-! ## 2. The size that is counted -/

/-- What an entry of the sessions takes when its keys have their sizes. -/
def sessionReserve (peer sessionId peerUser : Bytes) : Nat :=
  61 + 6 * x25519KeySize + peer.length + sessionId.length + peerUser.length

def sessionsReserve (cl : Client Bytes) : Nat :=
  (cl.sessionsByPeer.entries.map fun e => sessionReserve e.1 e.2.sessionId e.2.peerUser).sum

/-- What two full pools and an acknowledgement take, with the counts of the six containers. -/
def poolsReserve : Nat :=
  34 + kOneTimePrekeyPoolTarget * (12 + 2 * x25519KeySize) +
    kOneTimePrekeyPoolTarget * (12 + mlkemPublicKeySize + mlkemPrivateKeySize)

/-- The size of the file, with full pools and an acknowledgement. -/
def reserved (cl : Client Bytes) : Nat :=
  wrapperSize + identitySize cl + poolsReserve + peersSize cl + sessionsReserve cl +
    guardSize cl.seenInitialSessions.order + guardSize cl.seenInitialTranscripts.order

section Reserve

variable {p : Provider} {env : Environment} {cl : Client Bytes}

theorem sessionSize_le {s : SessionState Bytes} (hs : Sized s)
    (hratchet : s.localRatchetKey.privateKey.length ≤ x25519KeySize ∧
      s.localRatchetKey.publicKey.length ≤ x25519KeySize) (peer : Bytes) :
    sessionSize ⟨peer, s⟩ ≤ sessionReserve peer s.sessionId s.peerUser := by
  obtain ⟨hroot, hsend, hrecv, hremote⟩ := hs
  simp only [sessionSize, sessionReserve]
  omega

theorem sum_pool_le {pool : List (OneTimeKey Bytes)} {size : OneTimeKey Bytes → Nat} {max : Nat}
    (hlen : pool.length ≤ kOneTimePrekeyPoolTarget) (hsize : ∀ key ∈ pool, size key ≤ max) :
    (pool.map size).sum ≤ kOneTimePrekeyPoolTarget * max := by
  have h : (pool.map size).sum ≤ (pool.map size).length • max := by
    refine List.sum_le_card_nsmul _ _ fun n hn => ?_
    obtain ⟨key, hkey, rfl⟩ := List.mem_map.mp hn
    exact hsize key hkey
  rw [List.length_map, smul_eq_mul] at h
  exact h.trans (Nat.mul_le_mul_right _ hlen)

/-- The file never takes more than is counted. -/
theorem Works.fileSize_le (h : Works p env) (hcl : cl.Genuine p.crypto) (hb : Bounded cl)
    (hsized : SizedClient cl) : fileSize cl ≤ reserved cl := by
  have hec : (cl.oneTimeEcPool.map fun key =>
      12 + key.publicPart.publicKey.length + key.privatePart.privateKey.length).sum ≤
        kOneTimePrekeyPoolTarget * (12 + 2 * x25519KeySize) := by
    refine sum_pool_le hb.ec fun key hkey => ?_
    obtain ⟨hpublic, n, hgen⟩ := hcl.ec key hkey
    obtain ⟨hprivate, hsize⟩ := h.x25519Generate n _ hgen
    rw [hpublic]
    omega
  have hpq : (cl.oneTimePqPool.map fun key =>
      12 + key.publicPart.publicKey.length + mlkemPrivateKeySize).sum ≤
        kOneTimePrekeyPoolTarget * (12 + mlkemPublicKeySize + mlkemPrivateKeySize) := by
    refine sum_pool_le hb.pq fun key hkey => ?_
    obtain ⟨hpublic, n, hgen⟩ := hcl.pq key hkey
    have hsize := h.mlkemGenerate n _ hgen
    rw [hpublic]
    omega
  have hsessions : (cl.sessionsByPeer.entries.map sessionSize).sum ≤ sessionsReserve cl := by
    refine Multiset.sum_map_le_sum_map _ _ fun e he => ?_
    obtain ⟨peer, s⟩ := e
    have hl := Finmap.mem_lookup_iff.mpr he
    obtain ⟨n, hgen⟩ := hcl.ratchet peer s hl
    exact sessionSize_le (hsized peer s hl) (h.x25519Generate n _ hgen) peer
  have hack : (if cl.pendingInboxAckUpToId.isSome then 10 else 2) ≤ 10 := by
    split <;> omega
  rw [fileSize, payloadSize, reserved, poolsReserve]
  omega

end Reserve

/-! ## 3. Room -/

/-- The limits of a client. -/
structure Roomy (cl : Client Bytes) : Prop where
  peers : cl.trustedPeerIdentities.keys.card ≤ kMaxPersistedPeers
  sessions : cl.sessionsByPeer.keys.card ≤ kMaxPersistedSessions
  size : reserved cl ≤ kMaxStateFileBytes

/-- There is room for an identity, should it be a new one. -/
def PeerRoom (cl : Client Bytes) (peer : Bytes) (id : PeerIdentity Bytes) : Prop :=
  cl.trustedPeerIdentities.lookup peer = none →
    cl.trustedPeerIdentities.keys.card < kMaxPersistedPeers ∧
      reserved cl + peerSize ⟨peer, id⟩ ≤ kMaxStateFileBytes

/-- What goes for a new entry when the guard is full. -/
def evicted (order : List Bytes) : Nat :=
  if order.length < kMaxInitialReplayGuards then 0 else guardSize (order.take 1)

/-- What goes for a new session with a peer: the one that there is. -/
def replaced (cl : Client Bytes) (peer : Bytes) : Nat :=
  ((cl.sessionsByPeer.lookup peer).map fun s =>
    sessionReserve peer s.sessionId s.peerUser).getD 0

/-- There is room for a handshake: for its session, and for its entries in the guards. -/
structure HandshakeRoom (cl : Client Bytes) (peer sessionId transcriptHash : Bytes) : Prop where
  sessions : cl.sessionsByPeer.lookup peer = none →
    cl.sessionsByPeer.keys.card < kMaxPersistedSessions
  size : reserved cl + sessionReserve peer sessionId peer + guardSize [sessionId] +
      guardSize [hexEncode transcriptHash] ≤
    kMaxStateFileBytes + replaced cl peer + evicted cl.seenInitialSessions.order +
      evicted cl.seenInitialTranscripts.order

section Add

variable {cl : Client Bytes} {peer : Bytes}

theorem guardSize_append (order order' : List Bytes) :
    guardSize (order ++ order') = guardSize order + guardSize order' := by
  rw [guardSize, List.map_append, List.sum_append]
  rfl

theorem guardSize_cons (x : Bytes) (order : List Bytes) :
    guardSize (x :: order) = guardSize [x] + guardSize order :=
  guardSize_append [x] order

/-- Eviction only drops. -/
theorem guardSize_evictOldest_le (max : Nat) (seen : Finset Bytes) (order : List Bytes) :
    guardSize (evictOldest max seen order).order ≤ guardSize order := by
  induction order generalizing seen with
  | nil => exact Nat.le_refl _
  | cons oldest rest ih =>
    rw [evictOldest]
    split
    · refine (ih _).trans ?_
      rw [guardSize_cons]
      exact Nat.le_add_left _ _
    · exact Nat.le_refl _

/-- A guard that is full drops its oldest entry for a new one. -/
theorem guardSize_push_evict_le (guard : ReplayGuard Bytes) (x : Bytes) :
    guardSize (guard.push x).evict.order + evicted guard.order ≤
      guardSize guard.order + guardSize [x] := by
  rw [ReplayGuard.evict, ReplayGuard.push]
  dsimp only
  rw [← guardSize_append]
  rcases guard with ⟨seen, order⟩
  dsimp only
  rw [evicted]
  split
  · exact guardSize_evictOldest_le _ _ _
  · rename_i hfull
    cases order with
    | nil => exact absurd (by decide) hfull
    | cons oldest rest =>
      have hlen : kMaxInitialReplayGuards < (rest ++ [x]).length + 1 := by
        rw [List.length_append, List.length_singleton]
        rw [List.length_cons] at hfull
        omega
      have hrest := guardSize_evictOldest_le kMaxInitialReplayGuards
        ((insert x seen).erase oldest) (rest ++ [x])
      rw [List.cons_append, evictOldest, if_pos hlen, guardSize_cons oldest]
      exact (Nat.add_le_add_right hrest _).trans_eq (Nat.add_comm _ _)

/-- A peer that is remembered for the first time. -/
theorem Roomy.remember_peer (h : Roomy cl) {id : PeerIdentity Bytes}
    (hnew : cl.trustedPeerIdentities.lookup peer = none) (hroom : PeerRoom cl peer id) :
    Roomy { cl with trustedPeerIdentities := cl.trustedPeerIdentities.insert peer id } := by
  obtain ⟨hcard, hsize⟩ := hroom hnew
  refine ⟨Finmap.card_keys_insert_le h.peers (fun _ => hcard) id, h.sessions, ?_⟩
  have hsum := Finmap.sum_entries_insert cl.trustedPeerIdentities peer id peerSize
  rw [hnew, Option.map_none, Option.getD_none, add_zero] at hsum
  simp only [reserved, peersSize, identitySize, sessionsReserve] at hsize ⊢
  omega

/-- A peer that is verified. -/
theorem Roomy.verify_peer (h : Roomy cl) {id : PeerIdentity Bytes}
    (hid : cl.trustedPeerIdentities.lookup peer = some id) :
    Roomy { cl with trustedPeerIdentities :=
      cl.trustedPeerIdentities.insert peer { id with verified := true } } := by
  have hknown : cl.trustedPeerIdentities.lookup peer = none →
      cl.trustedPeerIdentities.keys.card < kMaxPersistedPeers := fun hnew => by
    rw [hid] at hnew
    cases hnew
  refine ⟨Finmap.card_keys_insert_le h.peers hknown _, h.sessions, ?_⟩
  have hsum := Finmap.sum_entries_insert cl.trustedPeerIdentities peer { id with verified := true }
    peerSize
  rw [hid, Option.map_some, Option.getD_some] at hsum
  have hsize := h.size
  simp only [peerSize] at hsum
  simp only [reserved, peersSize, peerSize, identitySize, sessionsReserve] at hsize ⊢
  omega

/-- A session that moves on. -/
theorem Roomy.withSession (h : Roomy cl) {s s' : SessionState Bytes}
    (hs : cl.sessionsByPeer.lookup peer = some s) (hid : s'.sessionId = s.sessionId)
    (hpeer : s'.peerUser = s.peerUser) : Roomy (cl.withSession peer s') := by
  have hknown : cl.sessionsByPeer.lookup peer = none →
      cl.sessionsByPeer.keys.card < kMaxPersistedSessions := fun hnew => by
    rw [hs] at hnew
    cases hnew
  refine ⟨h.peers, Finmap.card_keys_insert_le h.sessions hknown s', ?_⟩
  have hsum := Finmap.sum_entries_insert cl.sessionsByPeer peer s'
    (fun e => sessionReserve e.1 e.2.sessionId e.2.peerUser)
  rw [hs, Option.map_some, Option.getD_some] at hsum
  dsimp only at hsum
  rw [hid, hpeer] at hsum
  have hsize := h.size
  simp only [reserved, peersSize, identitySize, sessionsReserve, Client.withSession] at hsize ⊢
  omega

/-- A handshake. -/
theorem Roomy.handshake (h : Roomy cl) {s : SessionState Bytes} {transcriptHash : Bytes}
    (hroom : HandshakeRoom cl peer s.sessionId transcriptHash) (hpeer : s.peerUser = peer) :
    Roomy ((cl.remember s.sessionId transcriptHash).withSession peer s) := by
  refine ⟨h.peers, Finmap.card_keys_insert_le h.sessions hroom.sessions s, ?_⟩
  have hsum := Finmap.sum_entries_insert cl.sessionsByPeer peer s
    (fun e => sessionReserve e.1 e.2.sessionId e.2.peerUser)
  dsimp only at hsum
  rw [hpeer] at hsum
  have hsessions := guardSize_push_evict_le cl.seenInitialSessions s.sessionId
  have htranscripts := guardSize_push_evict_le cl.seenInitialTranscripts (hexEncode transcriptHash)
  have hsize := hroom.size
  simp only [reserved, replaced, peersSize, identitySize, sessionsReserve, Client.withSession,
    Client.remember] at hsize ⊢
  omega

end Add

/-! ## 4. The calls -/

/-- The client and what is on disk are within the limits. -/
def RoomyWorld {S : Type} (w : World Bytes S) : Prop :=
  Roomy w.client ∧ ∀ d, w.disk = some d → Roomy d

/-- The identity that a bundle offers. -/
def offeredIdentity (bundle : PrekeyBundle Bytes) : PeerIdentity Bytes :=
  ⟨bundle.identitySignPublicKey, bundle.identityMldsaPublicKey, bundle.identityDhPublicKey, false⟩

/-- The identity that an initial message announces. -/
def announcedIdentity (m : InitialMessage Bytes) : PeerIdentity Bytes :=
  ⟨m.initiatorIdentitySignPublicKey, m.initiatorIdentityMldsaPublicKey,
    m.initiatorIdentityDhPublicKey, false⟩

/-- An `InitiateSession` finds room for the identity in the bundle that the server offers, and for
the handshake if it comes to one. -/
structure InitiateRoom {S : Type} (c : Crypto Bytes) (server : ServerApi Bytes S)
    (peer plaintext : Bytes) (w : World Bytes S) : Prop where
  identity : ∀ bundle s, OfferedBundle c server peer w bundle s →
    PeerRoom w.client peer (offeredIdentity bundle)
  handshake : ∀ ready : ReadyInitiation c server peer plaintext w,
    HandshakeRoom w.client peer ready.handshake.fields.sessionId ready.handshake.transcriptHash

/-- A message that `HandleInitialMessage` follows up to the identity of its sender. -/
structure Announces (c : Crypto Bytes) (cl : Client Bytes) (m : InitialMessage Bytes) : Prop
    extends AnnouncedInitial c cl m where
  toUser_eq : m.toUser = cl.userId
  version_eq : m.version = kProtocolVersion
  suite_eq : m.cipherSuite = kCipherSuite

/-- An initial message finds room for the identity that it announces, and for its handshake if that
is accepted. -/
structure InitialRoom (c : Crypto Bytes) (cl : Client Bytes) (m : InitialMessage Bytes) :
    Prop where
  identity : Announces c cl m → PeerRoom cl m.fromUser (announcedIdentity m)
  handshake : ResponderRun c cl m → HandshakeRoom cl m.fromUser m.sessionId m.transcriptHash

section Calls

variable {S : Type} {c : Crypto Bytes} {server : ServerApi Bytes S} {w : World Bytes S}

open Proc (Preserves)

theorem saveLocalState_roomy :
    Preserves RoomyWorld (PqChat.saveLocalState : Proc (World Bytes S) Unit) := by
  have hsave : Preserves RoomyWorld
      (Proc.modify fun w : World Bytes S => { w with disk := some w.client }) := by
    refine .modify fun w h => ⟨h.1, fun d hd => ?_⟩
    obtain rfl := Option.some.inj hd
    exact h.1
  refine .bind .get fun w => .bind (.require _ _) fun _ => .bind (.require _ _) fun _ => ?_
  refine .bind (.modify fun _ h => h) fun _ => ?_
  split
  · exact hsave
  · exact .fail _
  · exact .bind hsave fun _ => .fail _

theorem callServer_roomy {α : Type} (x : Proc S α) :
    Preserves RoomyWorld (callServer x : Proc (World Bytes S) α) := .zoom fun _ h => h

theorem setFlags_roomy (f : Client Bytes → Bool × Option UInt64) :
    Preserves RoomyWorld (modifyClient fun cl : Client Bytes =>
      { cl with prekeysDirty := (f cl).1, pendingInboxAckUpToId := (f cl).2 } :
        Proc (World Bytes S) Unit) :=
  .modify fun _ h => ⟨⟨h.1.peers, h.1.sessions, h.1.size⟩, h.2⟩

theorem generateX25519_roomy :
    Preserves RoomyWorld (generateX25519 c : Proc (World Bytes S) (KeyPair Bytes)) :=
  .bind (fun _ h => h) fun _ => .bind (.ofExcept _ _) fun _ => .bind (.modify fun _ h => h)
    fun _ => .pure _

theorem generateMlKem_roomy :
    Preserves RoomyWorld (generateMlKem c : Proc (World Bytes S) (KeyPair Bytes)) :=
  .bind (fun _ h => h) fun _ => .bind (.ofExcept _ _) fun _ => .bind (.modify fun _ h => h)
    fun _ => .pure _

theorem generateUniqueOneTimePrekeyId_roomy : ∀ attempts : Nat,
    Preserves RoomyWorld (generateUniqueOneTimePrekeyId c attempts : Proc (World Bytes S) UInt32)
  | 0 => .fail _
  | attempts + 1 => .bind (fun _ h => h) fun _ => .bind (.ofExcept _ _) fun _ => .bind .get
      fun _ => .ite (generateUniqueOneTimePrekeyId_roomy attempts) (.pure _)

/-- A key that comes into a pool has been counted before. -/
theorem refillEc_roomy : ∀ missing : Nat,
    Preserves RoomyWorld (refillEc c missing : Proc (World Bytes S) Unit)
  | 0 => .pure _
  | missing + 1 => by
    refine .bind (.within _ generateX25519_roomy) fun pair => ?_
    refine .bind (generateUniqueOneTimePrekeyId_roomy 32) fun id => ?_
    refine .bind (.modify fun w h => ?_) fun _ => refillEc_roomy missing
    exact ⟨⟨h.1.peers, h.1.sessions, h.1.size⟩, h.2⟩

theorem refillPq_roomy : ∀ missing : Nat,
    Preserves RoomyWorld (refillPq c missing : Proc (World Bytes S) Unit)
  | 0 => .pure _
  | missing + 1 => by
    refine .bind (.within _ generateMlKem_roomy) fun pair => ?_
    refine .bind (generateUniqueOneTimePrekeyId_roomy 32) fun id => ?_
    refine .bind (.modify fun w h => ?_) fun _ => refillPq_roomy missing
    exact ⟨⟨h.1.peers, h.1.sessions, h.1.size⟩, h.2⟩

theorem refillOneTimePrekeyPools_roomy :
    Preserves RoomyWorld (refillOneTimePrekeyPools c : Proc (World Bytes S) Unit) :=
  .bind .get fun _ => .bind (refillEc_roomy _) fun _ => refillPq_roomy _

theorem publishPrekeys_roomy : Preserves RoomyWorld (publishPrekeys c server) :=
  .bind .get fun _ => .bind (callServer_roomy _) fun _ =>
    .bind (setFlags_roomy fun cl => (false, cl.pendingInboxAckUpToId)) fun _ =>
      .within _ saveLocalState_roomy

theorem enqueueAndSave_roomy (peer : Bytes) (envelope : Envelope Bytes) :
    Preserves RoomyWorld (enqueueAndSave server peer envelope) :=
  .bind (callServer_roomy _) fun _ => .within _ saveLocalState_roomy

theorem sealStep_roomy {userId peer plaintext : Bytes}
    {step : SessionState Bytes × MessageHeader Bytes}
    (hs : w.client.sessionsByPeer.lookup peer = some step.1) (h : RoomyWorld w) :
    RoomyWorld (sealStep c userId peer step plaintext w).2 := by
  rcases sealStep_cases (c := c) userId peer step plaintext w with ⟨run, hrun⟩ | ⟨e, hrun⟩
  · rw [hrun]
    exact ⟨h.1.withSession hs rfl rfl, h.2⟩
  · rw [hrun]
    exact h

theorem sealChat_roomy {peer plaintext : Bytes} {s : SessionState Bytes}
    (hs : w.client.sessionsByPeer.lookup peer = some s) (h : RoomyWorld w) :
    RoomyWorld (sealChat c peer s plaintext w).2 := by
  rw [sealChat, Proc.get_bind_apply]
  rcases sendRatchet_cases (c := c) peer s w with
    ⟨hd, hrun⟩ | ⟨run, -, hrun⟩ | ⟨e, pair, seed, -, hrun⟩ | ⟨e, hrun⟩
  · rw [Proc.bind_ok hrun]
    exact sealStep_roomy hs h
  · rw [Proc.bind_ok hrun]
    exact sealStep_roomy (Client.lookup_withSession ..) ⟨h.1.withSession hs rfl rfl, h.2⟩
  · rw [Proc.bind_error hrun]
    exact h
  · rw [Proc.bind_error hrun]
    exact h

theorem sendMessage_roomy (peer plaintext : Bytes) :
    Preserves RoomyWorld (sendMessage c server peer plaintext) := by
  intro w h
  rw [sendMessage, Proc.get_bind_apply]
  rcases hs : w.client.sessionsByPeer.lookup peer with _ | s
  · exact h
  · have hseal : RoomyWorld (sealChat c peer s plaintext w).2 := sealChat_roomy hs h
    dsimp only
    rcases hr : sealChat c peer s plaintext w with ⟨e | message, w'⟩
    · rw [hr] at hseal
      rw [Proc.bind_error hr]
      exact hseal
    · rw [hr] at hseal
      rw [Proc.bind_ok hr]
      exact enqueueAndSave_roomy peer _ _ hseal

theorem handleChatMessage_roomy (m : ChatMessage Bytes) :
    Preserves RoomyWorld (handleChatMessage c m : Proc (World Bytes S) Bytes) := by
  intro w h
  rcases handleChatMessage_cases c m w with ⟨e, hrun⟩ | ⟨s, hs, -, hrun⟩
  · rw [hrun]
    exact h
  · obtain ⟨hid, hpeer⟩ : (receiveChat c m s).2.sessionId = s.sessionId ∧
        (receiveChat c m s).2.peerUser = s.peerUser :=
      ⟨(receiveChat_frame c m s).1.sessionId, (receiveChat_frame c m s).1.peerUser⟩
    rw [hrun]
    exact ⟨h.1.withSession hs hid hpeer, h.2⟩

theorem verifyPeerSafetyNumber_roomy (peer number : Bytes) :
    Preserves RoomyWorld (verifyPeerSafetyNumber c peer number : Proc (World Bytes S) Unit) := by
  intro w h
  show Proc.wp (verifyPeerSafetyNumber c peer number) (fun _ => RoomyWorld) w
  refine Proc.wp_get_bind ?_
  rcases hid : w.client.trustedPeerIdentities.lookup peer with _ | id
  · exact h
  · refine Proc.wp_ofExcept_bind (fun _ _ => h) fun computed _ => ?_
    refine Proc.wp_require_bind (fun _ => h) fun _ => Proc.wp_modify_bind ?_
    exact (saveLocalState_roomy.within _) _ ⟨h.1.verify_peer hid, h.2⟩

/-- An identity that finds room is remembered without harm. -/
theorem verifyOrRememberPeerIdentity_roomy {peer k₁ k₂ k₃ : Bytes} (h : RoomyWorld w)
    (hroom : (∃ n, computeSafetyNumber c peer k₁ k₂ k₃ = .ok n) →
      PeerRoom w.client peer ⟨k₁, k₂, k₃, false⟩) :
    RoomyWorld (verifyOrRememberPeerIdentity c peer k₁ k₂ k₃ w).2 := by
  show Proc.wp (verifyOrRememberPeerIdentity c peer k₁ k₂ k₃) (fun _ => RoomyWorld) w
  refine Proc.wp_ofExcept_bind (fun _ _ => h) fun number hnumber => Proc.wp_get_bind ?_
  rcases hid : w.client.trustedPeerIdentities.lookup peer with _ | id
  · refine Proc.wp_modify_bind ?_
    have hremembered : RoomyWorld { w with client := { w.client with
        trustedPeerIdentities :=
          w.client.trustedPeerIdentities.insert peer ⟨k₁, k₂, k₃, false⟩ } } :=
      ⟨h.1.remember_peer hid (hroom ⟨number, hnumber⟩), h.2⟩
    exact Preserves.bind (saveLocalState_roomy.within _) (fun _ => .fail _) _ hremembered
  · exact Preserves.bind (.require _ _) (fun _ => .require _ _) _ h

theorem fetchPeerBundle_roomy {peer : Bytes} (h : RoomyWorld w)
    (hroom : ∀ bundle s, OfferedBundle c server peer w bundle s →
      PeerRoom w.client peer (offeredIdentity bundle)) :
    RoomyWorld (fetchPeerBundle c server peer w).2 := by
  show Proc.wp (fetchPeerBundle c server peer) (fun _ => RoomyWorld) w
  rcases ha : server.acquireBundleForSession peer w.server with ⟨e | bundle, s⟩
  · exact Proc.wp_of_eq (Proc.bind_error (Proc.within_error (callServer_of_eq ha) _) _) h
  · refine Proc.wp_of_bind_ok (Proc.within_ok (callServer_of_eq ha) _) (Proc.wp_modify_bind ?_)
    refine Proc.wp_require_bind (fun _ => h) fun huser => ?_
    refine Proc.wp_require_bind (fun _ => h) fun hversion => ?_
    refine Proc.wp_require_bind (fun _ => h) fun hsuite => ?_
    refine Proc.wp_ofExcept_bind (fun _ _ => h) fun _ hverify => ?_
    refine Proc.wp_bind (R := fun _ => RoomyWorld) ?_ (fun _ _ h => h) fun _ _ h => h
    exact verifyOrRememberPeerIdentity_roomy (w := w.fetched bundle s) h
      fun hnumber => hroom bundle s ⟨ha, huser, hversion, hsuite, hverify, hnumber⟩

/-- An `InitiateSession` that fails before it stores the session may have remembered the peer. -/
theorem prepareInitial_roomy {peer plaintext : Bytes} (h : RoomyWorld w)
    (hroom : InitiateRoom c server peer plaintext w) :
    Proc.wp (prepareInitial c server peer plaintext)
      (fun r w' => (∃ e, r = .error e) → RoomyWorld w') w := by
  refine Proc.wp_bind (R := fun _ => RoomyWorld) (fetchPeerBundle_roomy h hroom.identity)
    (fun _ _ h _ => h) fun bundle w₁ h₁ => ?_
  have hagree : RoomyWorld (agreeAsInitiator c peer bundle w₁).2 := by
    have ho := agreeAsInitiator_outcome (c := c) peer bundle w₁
    rcases hr : agreeAsInitiator c peer bundle w₁ with ⟨r, w₂⟩
    rw [Proc.wp, hr] at ho
    cases ho <;> exact h₁
  refine Proc.wp_bind (R := fun _ => RoomyWorld) hagree (fun _ _ h _ => h) fun agreement w₂ h₂ => ?_
  have hseal : Preserves RoomyWorld
      (sealInitial c peer bundle agreement plaintext : Proc (World Bytes S) _) :=
    .bind (.within _ (.bind (.ofExcept _ _) fun _ => .bind (.bind (.ofExcept _ _) fun _ =>
      .bind (.modify fun _ h => h) fun _ => .pure _) fun _ => .pure _)) fun _ =>
        .bind (.modify fun _ h => h) fun _ => .pure _
  refine Proc.wp_bind (R := fun _ => RoomyWorld) (hseal w₂ h₂) (fun _ _ h _ => h)
    fun sealed w₃ h₃ => ?_
  rcases rememberInitialReplayGuards_cases agreement.fields.sessionId agreement.transcriptHash w₃
    with ⟨-, hok⟩ | ⟨-, e, herr⟩
  · refine Proc.wp_of_bind_ok hok ?_
    rintro ⟨e, he⟩
    cases he
  · exact Proc.wp_of_eq (Proc.bind_error herr _) fun _ => h₃

theorem initiateSession_roomy {peer plaintext : Bytes} (h : RoomyWorld w)
    (hroom : InitiateRoom c server peer plaintext w) :
    RoomyWorld (initiateSession c server peer plaintext w).2 := by
  have hfails := prepareInitial_roomy h hroom
  rw [Proc.wp] at hfails
  rw [initiateSession_eq]
  rcases hprepare : prepareInitial c server peer plaintext w with ⟨e | ⟨m, s⟩, w₁⟩
  · rw [hprepare] at hfails
    rw [Proc.bind_error hprepare]
    exact hfails ⟨e, rfl⟩
  · obtain ⟨ready, rfl, rfl, -, hclient, hdisk⟩ := ready_of_prepareInitial hprepare
    have hstored : RoomyWorld { w₁ with
        client := w₁.client.withSession peer ready.handshake.session } := by
      refine ⟨?_, fun d hd => h.2 d (hdisk ▸ hd)⟩
      rw [hclient]
      exact h.1.handshake (s := ready.handshake.session) (hroom.handshake ready) rfl
    rw [Proc.bind_ok hprepare]
    exact enqueueAndSave_roomy peer _ _ hstored

theorem checkInitialMessage_roomy {m : InitialMessage Bytes} (h : RoomyWorld w)
    (hroom : AnnouncedInitial c w.client m → PeerRoom w.client m.fromUser (announcedIdentity m)) :
    RoomyWorld (checkInitialMessage c m w).2 := by
  show Proc.wp (checkInitialMessage c m) (fun _ => RoomyWorld) w
  refine Proc.wp_get_bind ?_
  refine Proc.wp_require_bind (fun _ => h) fun hunseen => ?_
  refine Proc.wp_require_bind (fun _ => h) fun hids => ?_
  refine Proc.wp_ofExcept_bind (fun _ _ => h) fun transcriptHash hhash => ?_
  refine Proc.wp_require_bind (fun _ => h) fun heq => ?_
  subst heq
  refine Proc.wp_ofExcept_bind (fun _ _ => h) fun _ hsig => ?_
  refine Proc.wp_ofExcept_bind (fun _ _ => h) fun _ hsigMldsa => ?_
  exact verifyOrRememberPeerIdentity_roomy h
    fun hnumber => hroom ⟨hunseen, hids, hhash, hsig, hsigMldsa, hnumber⟩

/-- A message that is rejected may have left the identity of its sender. -/
theorem handleInitialMessage_rejected_roomy {m : InitialMessage Bytes} (h : RoomyWorld w)
    (hroom : InitialRoom c w.client m) :
    Proc.wp (handleInitialMessage c m)
      (fun r w' => (∃ e, r = .error e) → RoomyWorld w') w := by
  let w₁ : World Bytes S := { w with trace := .receivedInitial m :: w.trace }
  refine Proc.wp_modify_bind (Proc.wp_get_bind ?_)
  refine Proc.wp_require_bind (fun _ _ => h) fun huser => ?_
  refine Proc.wp_require_bind (fun _ _ => h) fun hversion => ?_
  refine Proc.wp_require_bind (fun _ _ => h) fun hsuite => ?_
  split
  · refine Proc.wp_bind (R := fun _ => RoomyWorld) ?_ (fun _ _ h _ => h) fun _ w₂ h₂ => ?_
    · exact checkInitialMessage_roomy (w := w₁) h
        fun hannounced => hroom.identity ⟨hannounced, huser, hversion, hsuite⟩
    refine Proc.wp_ofExcept_bind (fun _ _ _ => h₂) fun agreement _ => ?_
    refine Proc.wp_ofExcept_bind (fun _ _ _ => h₂) fun opened _ => ?_
    rcases rememberInitialReplayGuards_cases m.sessionId m.transcriptHash w₂ with
      ⟨-, hok⟩ | ⟨-, e, herr⟩
    · exact Proc.wp_of_bind_ok hok nofun
    · exact Proc.wp_of_eq (Proc.bind_error herr _) fun _ => h₂
  · exact fun _ => h

theorem handleInitialMessage_roomy {m : InitialMessage Bytes} (h : RoomyWorld w)
    (hroom : InitialRoom c w.client m) : RoomyWorld (handleInitialMessage c m w).2 := by
  rcases handleInitialMessage_cases (c := c) (P := fun _ => True) (v := .any) m w with
    ⟨run, hrun⟩ | ⟨e, w', hrun, -⟩
  · rw [hrun]
    have hsession := h.1.handshake (hroom.handshake run)
      (s := responderSession w.client m run.keys run.nextChainKey) rfl
    exact ⟨⟨hsession.peers, hsession.sessions, hsession.size⟩, h.2⟩
  · have hfails := handleInitialMessage_rejected_roomy h hroom
    rw [Proc.wp, hrun] at hfails
    rw [hrun]
    exact hfails ⟨e, rfl⟩

end Calls

/-! ## 5. The inbox -/

/-- An envelope with an initial message finds room for it. -/
def EnvelopeRoom (c : Crypto Bytes) (cl : Client Bytes) (envelope : Envelope Bytes) : Prop :=
  ∀ m, envelope.type = .kInitial → envelope.initial = some m → InitialRoom c cl m

/-- So does every envelope of a page, in the client that comes to it. -/
def ItemsRoom {S : Type} (c : Crypto Bytes) :
    List (InboxEnvelope Bytes) → World Bytes S → Prop
  | [], _ => True
  | item :: rest, w => EnvelopeRoom c w.client item.envelope ∧
      ∀ plaintext w', handleEnvelope c item.envelope w = (.ok plaintext, w') → ItemsRoom c rest w'

/-- And of every page that the server has for the client. -/
def PassesRoom {S : Type} (c : Crypto Bytes) (server : ServerApi Bytes S) :
    Nat → Option UInt64 → World Bytes S → Prop
  | 0, _, _ => True
  | passes + 1, ackToSend, w => ∀ items s,
      server.drainInbox w.client.userId ackToSend w.server = (.ok items, s) →
        ItemsRoom c items ({ w with server := s }.withPending none) ∧
          ∀ batch w', items ≠ [] → batch.error = none →
            processItems c items ({ w with server := s }.withPending none) = (.ok batch, w') →
              PassesRoom c server passes batch.maxAckableInboxId
                (w'.withPending (batch.maxAckableInboxId.or w'.client.pendingInboxAckUpToId))

section Inbox

variable {S : Type} {c : Crypto Bytes} {server : ServerApi Bytes S}

open Proc (Preserves)

theorem RoomyWorld.withPending {w : World Bytes S} (h : RoomyWorld w) (pending : Option UInt64) :
    RoomyWorld (w.withPending pending) :=
  ⟨⟨h.1.peers, h.1.sessions, h.1.size⟩, h.2⟩

theorem handleEnvelope_roomy {w : World Bytes S} {envelope : Envelope Bytes} (h : RoomyWorld w)
    (hroom : EnvelopeRoom c w.client envelope) : RoomyWorld (handleEnvelope c envelope w).2 := by
  show Proc.wp (handleEnvelope c envelope) (fun _ => RoomyWorld) w
  rw [handleEnvelope]
  split
  · rename_i m htype hinitial
    exact handleInitialMessage_roomy h (hroom m htype hinitial)
  · exact handleChatMessage_roomy _ _ h
  · exact h

theorem processItems_roomy : ∀ (items : List (InboxEnvelope Bytes)) (w : World Bytes S),
    RoomyWorld w → ItemsRoom c items w → RoomyWorld (processItems c items w).2
  | [], _, h, _ => h
  | item :: rest, w, h, hroom => by
    have hitem := handleEnvelope_roomy h hroom.1
    rcases hstatus : handleEnvelope c item.envelope w with ⟨e | plaintext, w'⟩
    · rw [hstatus] at hitem
      rw [processItems, Proc.bind_ok (Proc.attempt_apply hstatus)]
      exact hitem
    · rw [hstatus] at hitem
      rw [processItems, Proc.bind_ok (Proc.attempt_apply hstatus)]
      have hrest := processItems_roomy rest w' hitem (hroom.2 plaintext w' hstatus)
      show Proc.wp (processItems c rest >>= _) (fun _ => RoomyWorld) w'
      exact Proc.wp_bind (R := fun _ => RoomyWorld) hrest (fun _ _ h => h) fun _ _ h => h

/-- A batch that stops at an envelope is no error of the loop. -/
theorem processItems_succeeds : ∀ items : List (InboxEnvelope Bytes),
    Proc.Succeeds (processItems c items : Proc (World Bytes S) (BatchResult Bytes))
  | [] => .pure _
  | item :: rest => by
    refine .bind (.attempt _) fun status => ?_
    cases status with
    | error e => exact .pure _
    | ok plaintext => exact .bind (processItems_succeeds rest) fun _ => .pure _

theorem drainPasses_roomy : ∀ (passes : Nat) (ackToSend : Option UInt64)
    (plaintexts : List Bytes) (w : World Bytes S), RoomyWorld w →
      PassesRoom c server passes ackToSend w →
        RoomyWorld (drainPasses c server passes ackToSend plaintexts w).2
  | 0, _, _, _, h, _ => h
  | passes + 1, ackToSend, plaintexts, w, h, hroom => by
    rcases hdrain : server.drainInbox w.client.userId ackToSend w.server with ⟨e | items, s⟩
    · rw [Desk.drainPasses_of_error (callServer_of_eq hdrain)]
      split <;> exact RoomyWorld.withPending (w := { w with server := s }) h _
    · have hcall := callServer_of_eq hdrain
      obtain ⟨hitems, hnext⟩ := hroom items s hdrain
      let w₁ : World Bytes S := { w with server := s }.withPending none
      have hw₁ : RoomyWorld w₁ := RoomyWorld.withPending (w := { w with server := s }) h none
      by_cases hempty : items = []
      · subst hempty
        rw [Desk.drainPasses_of_empty hcall]
        exact hw₁
      have hbatch := processItems_roomy items w₁ hw₁ hitems
      obtain ⟨batch, hok⟩ := processItems_succeeds (c := c) items w₁
      have hrun : processItems c items w₁ = (.ok batch, (processItems c items w₁).2) :=
        Prod.ext hok rfl
      obtain ⟨hstop, hgo⟩ := Desk.drainPasses_of_page passes plaintexts hcall hempty hrun
      rcases herror : batch.error with _ | e
      · rw [hgo herror]
        exact drainPasses_roomy passes _ _ _ (hbatch.withPending _)
          (hnext batch _ hempty herror hrun)
      · rw [hstop e herror]
        exact hbatch.withPending _

theorem republishIfDirty_roomy (firstError : Option String) :
    Preserves RoomyWorld (republishIfDirty c server firstError) := by
  have hpublish : Preserves RoomyWorld (Proc.attempt (publishPrekeys c server)) :=
    .attempt publishPrekeys_roomy
  refine .bind .get fun _ => .ite ?_ (.pure _)
  refine .bind (.attempt refillOneTimePrekeyPools_roomy) fun refill => ?_
  split
  · exact .pure _
  · refine .bind hpublish fun publish => ?_
    split
    · exact .pure _
    · exact .bind (setFlags_roomy fun cl => (false, cl.pendingInboxAckUpToId)) fun _ => .pure _

theorem processInbox_roomy {w : World Bytes S} (h : RoomyWorld w)
    (hroom : PassesRoom c server kMaxInboxDrainPasses w.client.pendingInboxAckUpToId w) :
    RoomyWorld (processInbox c server w).2 := by
  have hdrain := drainPasses_roomy kMaxInboxDrainPasses w.client.pendingInboxAckUpToId [] w h hroom
  show Proc.wp (processInbox c server) (fun _ => RoomyWorld) w
  refine Proc.wp_get_bind (Proc.wp_bind (R := fun _ => RoomyWorld) hdrain (fun _ _ h => h) ?_)
  intro drained w₁ h₁
  refine Preserves.bind (republishIfDirty_roomy drained.2) (fun firstError => ?_) w₁ h₁
  split
  · exact .fail _
  · refine .bind (.attempt saveLocalState_roomy) fun save => ?_
    split
    · exact .fail _
    · exact .pure _

end Inbox

/-! ## 6. Runs -/

section Runs

variable {S : Type} {P : Crypto Bytes → Prop}

/-- A call of `Create` finds room for the client that it makes, should it have to make one. -/
def CreateRoom (c : Crypto Bytes) (userId : Bytes) (w : World Bytes S) : Prop :=
  StateMissing userId w →
    ∀ run : IdentityRun c, reserved (run.install (Client.blank userId)) ≤ kMaxStateFileBytes

/-- A call finds room for the peers and the handshakes that it comes to. -/
def Room (c : Crypto Bytes) (server : ServerApi Bytes S) (w : World Bytes S) : Op Bytes → Prop
  | .initiate peer plaintext => InitiateRoom c server peer plaintext w
  | .processInbox => PassesRoom c server kMaxInboxDrainPasses w.client.pendingInboxAckUpToId w
  | .handleInitial m => InitialRoom c w.client m
  | .publish | .verifyPeer .. | .send .. | .handleChat _ | .refill => True

/-- The runs whose steps have room. -/
inductive RoomyRun (P : Crypto Bytes → Prop) : Bool → World Bytes S → Prop
  | start (w : World Bytes S) (hdisk : w.disk = none) (htrace : w.trace = []) :
    RoomyRun P false w
  | create {alive : Bool} {w : World Bytes S} {c : Crypto Bytes} (hc : P c) (userId : Bytes)
    (h : RoomyRun P alive w) (hroom : CreateRoom c userId w) :
    RoomyRun P (create c userId w).1.isOk (create c userId w).2
  | op {w : World Bytes S} {c : Crypto Bytes} (hc : P c) (server : ServerApi Bytes S)
    (op : Op Bytes) (h : RoomyRun P true w) (hroom : Room c server w op) :
    RoomyRun P true (op.run c server w).2

theorem RoomyRun.reach {alive : Bool} {w : World Bytes S} (h : RoomyRun P alive w) :
    Reach P alive w := by
  induction h with
  | start w hdisk htrace => exact .start w hdisk htrace
  | create hc userId _ _ ih => exact .create hc userId ih
  | op hc server op _ _ ih => exact .op hc server op ih

theorem Roomy.reload {cl : Client Bytes} (h : Roomy cl) : Roomy cl.reload :=
  ⟨h.peers, h.sessions, h.size⟩

/-- A client comes up within the limits, or it does not come up. -/
theorem create_roomy {c : Crypto Bytes} {userId : Bytes} {w : World Bytes S}
    (hdisk : ∀ d, w.disk = some d → Roomy d) (hroom : CreateRoom c userId w) :
    (∀ d, (create c userId w).2.disk = some d → Roomy d) ∧
      ((create c userId w).1.isOk = true → RoomyWorld (create c userId w).2) := by
  have hfinish : ∀ (p : String) (w₁ : World Bytes S), RoomyWorld w₁ →
      RoomyWorld (finishCreate c p w₁).2 := fun p w₁ h₁ =>
    Proc.Preserves.bind (.within _ refillOneTimePrekeyPools_roomy)
      (fun _ => .within _ saveLocalState_roomy) w₁ h₁
  rcases create_ends (P := fun _ => True) (v := .any) trivial userId w with
    ⟨w₁, p, -, hrun, ⟨saved, hsaved, hw₁⟩ | ⟨hmissing, hw₁, run, hclient⟩⟩ | ⟨⟨e, he⟩, hd, -⟩
  · have h₁ : RoomyWorld w₁ := by
      rw [hw₁]
      exact ⟨(hdisk saved hsaved).reload, hdisk⟩
    rw [hrun]
    exact ⟨(hfinish p w₁ h₁).2, fun _ => hfinish p w₁ h₁⟩
  · have h₁ : RoomyWorld w₁ := by
      refine ⟨?_, fun d hd => hdisk d (hw₁ ▸ hd)⟩
      rw [hclient]
      exact ⟨Nat.zero_le _, Nat.zero_le _, hroom hmissing run⟩
    rw [hrun]
    exact ⟨(hfinish p w₁ h₁).2, fun _ => hfinish p w₁ h₁⟩
  · refine ⟨fun d hd' => hdisk d (hd ▸ hd'), fun hok => ?_⟩
    rw [he] at hok
    cases hok

/-- A call that finds room stays within the limits, failed or not. -/
theorem Op.run_roomy {c : Crypto Bytes} {server : ServerApi Bytes S} {w : World Bytes S}
    {op : Op Bytes} (h : RoomyWorld w) (hroom : Room c server w op) :
    RoomyWorld (op.run c server w).2 := by
  have hthen : ∀ {α : Type} {x : Proc (World Bytes S) α} {f : α → List Bytes},
      RoomyWorld (x w).2 → RoomyWorld ((x >>= fun a => pure (f a)) w).2 := by
    intro α x f hx
    show Proc.wp (x >>= _) (fun _ => RoomyWorld) w
    exact Proc.wp_bind (R := fun _ => RoomyWorld) hx (fun _ _ h => h) fun _ _ h => h
  cases op with
  | publish => exact hthen (publishPrekeys_roomy w h)
  | verifyPeer peer number => exact hthen (verifyPeerSafetyNumber_roomy peer number w h)
  | initiate peer plaintext => exact hthen (initiateSession_roomy h hroom)
  | send peer plaintext => exact hthen (sendMessage_roomy peer plaintext w h)
  | processInbox => exact processInbox_roomy h hroom
  | handleInitial m => exact hthen (handleInitialMessage_roomy h hroom)
  | handleChat m => exact hthen (handleChatMessage_roomy m w h)
  | refill => exact hthen (refillOneTimePrekeyPools_roomy w h)

/-- In a run whose steps have room every client is within the limits. -/
theorem RoomyRun.roomy {alive : Bool} {w : World Bytes S} (h : RoomyRun P alive w) :
    (∀ d, w.disk = some d → Roomy d) ∧ (alive = true → RoomyWorld w) := by
  induction h with
  | start w hdisk _ =>
    refine ⟨fun d hd => ?_, nofun⟩
    rw [hdisk] at hd
    cases hd
  | create hc userId _ hroom ih => exact create_roomy ih.1 hroom
  | op hc server op _ hroom ih =>
    have hafter := Op.run_roomy (ih.2 rfl) hroom
    exact ⟨hafter.2, fun _ => hafter⟩

/-- **Saved state is loadable, in every run whose steps have room.** -/
theorem RoomyRun.storable {p : Provider} {env : Environment} (hp : Works p env)
    (hP : ∀ d, P d → d.Refines p.crypto) {w : World Bytes S} (h : RoomyRun P true w) :
    Storable p env w.client := by
  have hgenuine := (h.reach.genuine_of_refines hP).2 rfl
  have hbounded := h.reach.bounded.1
  have hsize := hp.fileSize_le hgenuine hbounded (hp.reach_sized hP h.reach)
  have hroomy := (h.roomy.2 rfl).1
  exact (storable_iff hp hgenuine hbounded).mpr
    ⟨hroomy.peers, hroomy.sessions, hsize.trans hroomy.size⟩

end Runs

/-! ## 7. A crowd -/

section Crowd

theorem paddedKeys_export {size : Nat} (hsize : 4 ≤ size) {privateKey publicKey : Bytes}
    (h : privateKey.length = 4) :
    ∃ stored, (paddedKeys size).exportPrivateKey privateKey = .ok stored ∧ stored.length = size ∧
      (paddedKeys size).keyPairFromRaw stored publicKey = .ok privateKey := by
  refine ⟨_, rfl, ?_, paddedKeys_inverse h _ rfl⟩
  rw [List.length_append, List.length_replicate, h]
  omega

theorem transparent_works : Works transparent someEnvironment where
  passphrase := ⟨_, _, rfl⟩
  salt := ⟨_, rfl⟩
  nonce := ⟨_, rfl⟩
  pbkdf2 _ _ _ _ := ⟨_, rfl⟩
  evpSeal key nonce plaintext ad _ _ := ⟨_, rfl, by simp⟩
  opens := transparent_opensSeals
  mldsa n pair h := by
    obtain rfl := Except.ok.inj h
    exact paddedKeys_export (by decide) rfl
  mlkem n pair h := by
    obtain rfl := Except.ok.inj h
    exact paddedKeys_export (by decide) rfl
  x25519Generate n pair h := by
    obtain rfl := Except.ok.inj h
    have hlen : 4 ≤ x25519KeySize := by decide
    exact ⟨hlen, hlen⟩
  x25519SharedSecret privateKey peerPublicKey secret h := by
    by_contra hlong
    have herror : transparentCrypto.x25519SharedSecret privateKey peerPublicKey =
        .error "new_raw_public_key failed" := if_neg hlong
    rw [transparent, herror] at h
    cases h
  mlkemGenerate n pair h := by
    obtain rfl := Except.ok.inj h
    have hlen : 4 ≤ mlkemPublicKeySize := by decide
    exact hlen

/-- An honest client of the name, as far as its bundle goes. -/
def stranger (name : Bytes) : Client Bytes :=
  let pair : KeyPair Bytes := ⟨be32 1, be32 1⟩
  let ecInput := buildEcPrekeySignInput 1 pair.publicKey
  let pqInput := buildPqPrekeySignInput 1 pair.publicKey
  { Client.blank name with
    identitySignKey := pair
    identityMldsaKey := pair
    identityDhKey := pair
    signedPrekeyEcPublic := ⟨1, pair.publicKey, be32 1 ++ ecInput, be32 1 ++ ecInput⟩
    signedPrekeyEcPrivate := pair
    signedPrekeyPqPublic := ⟨1, pair.publicKey, be32 1 ++ pqInput, be32 1 ++ pqInput⟩
    signedPrekeyPqPrivate := pair
    oneTimeEcPool := [OneTimeKey.make 1 pair]
    oneTimePqPool := [OneTimeKey.make 2 pair] }

/-- A server that knows everybody. -/
def crowdedServer : ServerApi Bytes Unit where
  publishBundle _ := pure ()
  acquireBundleForSession name := pure ((stranger name).buildPrekeyBundle transparentCrypto)
  enqueueEnvelope _ _ := pure ()
  drainInbox _ _ := pure []

theorem stranger_verifies (name : Bytes) :
    verifyPrekeyBundleSignatures transparentCrypto
      ((stranger name).buildPrekeyBundle transparentCrypto) = .ok () := by
  have hinput : buildBundleSignInput ((stranger name).buildPrekeyBundle transparentCrypto) =
      buildBundleSignInput (stranger name).unsignedBundle := rfl
  rw [verifyPrekeyBundleSignatures, hinput]
  simp [stranger, Client.buildPrekeyBundle, Client.unsignedBundle, signatureOrEmpty,
    Result.within, Except.mapError, transparentCrypto, Except.toOption]
  rfl

/-- The identity under which every stranger is remembered. -/
def strangerIdentity : PeerIdentity Bytes := ⟨be32 1, be32 1, be32 1, false⟩

/-- A call of `InitiateSession` for a peer that is not known remembers the peer, and fails. -/
theorem initiate_remembers {name : Bytes} {w : World Bytes Unit}
    (h : w.client.trustedPeerIdentities.lookup name = none) :
    ((Op.initiate name []).run transparentCrypto crowdedServer w).2.client =
      { w.client with
        trustedPeerIdentities := w.client.trustedPeerIdentities.insert name strangerIdentity } := by
  let cl : Client Bytes :=
    { w.client with
      trustedPeerIdentities := w.client.trustedPeerIdentities.insert name strangerIdentity }
  -- everything that follows the failure is skipped
  have hskip : ∀ {α β : Type} {x : Proc (World Bytes Unit) α} {f : α → Proc (World Bytes Unit) β}
      {w' : World Bytes Unit},
      Proc.wp x (fun r w' => (∃ e, r = .error e) ∧ w'.client = cl) w' →
        Proc.wp (x >>= f) (fun r w' => (∃ e, r = .error e) ∧ w'.client = cl) w' := by
    intro α β x f w' hx
    refine Proc.wp_bind hx (fun e w' hw' => ⟨⟨e, rfl⟩, hw'.2⟩) fun a w' hw' => ?_
    obtain ⟨⟨e, he⟩, -⟩ := hw'
    cases he
  suffices hrun : Proc.wp ((Op.initiate name []).run transparentCrypto crowdedServer)
      (fun r w' => (∃ e, r = .error e) ∧ w'.client = cl) w from hrun.2
  refine hskip (hskip ?_)
  refine Proc.wp_of_bind_ok (rfl : _ = (_, w)) (Proc.wp_modify_bind ?_)
  refine Proc.wp_require_bind (fun hn => absurd rfl hn) fun _ => ?_
  refine Proc.wp_require_bind (fun hn => absurd rfl hn) fun _ => ?_
  refine Proc.wp_require_bind (fun hn => absurd rfl hn) fun _ => ?_
  rw [stranger_verifies]
  refine Proc.wp_ofExcept_bind nofun fun _ _ => hskip ?_
  refine Proc.wp_ofExcept_bind nofun fun number _ => Proc.wp_get_bind ?_
  dsimp only
  rw [h]
  refine Proc.wp_modify_bind (Proc.wp_bind (R := fun _ w' => w'.client = cl) ?_
    (fun e _ hw' => ⟨⟨e, rfl⟩, hw'⟩) fun _ _ hw' => Proc.wp_fail ⟨⟨_, rfl⟩, hw'⟩)
  show (Proc.within _ PqChat.saveLocalState _).2.client = cl
  rw [Proc.within_state, (saveLocalState_frame _).1]
  rfl

/-- Alice is about to come up for the first time. -/
def emptyWorld : World Bytes Unit where
  client := Client.blank empty
  server := ()
  disk := none
  entropy n := n + 1
  drawn := 0
  diskOutcome _ := .ok
  diskUses := 0
  trace := []

/-- The names of the strangers. -/
def strangerName (n : Nat) : Bytes := List.replicate (n + 1) 97

/-- Alice has tried to reach `n` strangers. -/
def crowd : Nat → World Bytes Unit
  | 0 => (create transparentCrypto (ascii "alice") emptyWorld).2
  | n + 1 => ((Op.initiate (strangerName n) []).run transparentCrypto crowdedServer (crowd n)).2

theorem create_emptyWorld :
    (create transparentCrypto (ascii "alice") emptyWorld).1.isOk = true ∧
      (crowd 0).client.trustedPeerIdentities = ∅ := by
  decide +kernel

theorem crowd_reach (n : Nat) : Reach (· = transparentCrypto) true (crowd n) := by
  induction n with
  | zero =>
    have h := Reach.create (P := (· = transparentCrypto)) rfl (ascii "alice")
      (.start emptyWorld rfl rfl)
    rwa [create_emptyWorld.1] at h
  | succ n ih => exact .op (P := (· = transparentCrypto)) rfl crowdedServer _ ih

/-- She knows all of them. -/
theorem crowd_keys (n : Nat) :
    (crowd n).client.trustedPeerIdentities.keys = (Finset.range n).image strangerName := by
  induction n with
  | zero =>
    rw [create_emptyWorld.2]
    rfl
  | succ n ih =>
    have hnew : strangerName n ∉ (crowd n).client.trustedPeerIdentities := by
      rw [← Finmap.mem_keys, ih]
      intro h
      obtain ⟨m, hm, he⟩ := Finset.mem_image.mp h
      have hlen := congrArg List.length he
      rw [strangerName, strangerName, List.length_replicate, List.length_replicate] at hlen
      exact absurd (Finset.mem_range.mp hm) (by omega)
    rw [crowd, initiate_remembers (Finmap.lookup_eq_none.mpr hnew), Finset.range_add_one,
      Finset.image_insert, ← ih]
    ext k
    simp [Finmap.mem_keys]

theorem crowd_card (n : Nat) : (crowd n).client.trustedPeerIdentities.keys.card = n := by
  have hinj : Function.Injective strangerName := fun m n h => by
    simpa [strangerName] using congrArg List.length h
  rw [crowd_keys, Finset.card_image_of_injective _ hinj, Finset.card_range]

/-- **With 1025 of them she cannot be stored any more.** -/
theorem crowd_not_storable :
    Works transparent someEnvironment ∧ Reach (· = transparent.crypto) true (crowd 1025) ∧
      ¬ Storable transparent someEnvironment (crowd 1025).client := by
  have hreach := crowd_reach 1025
  refine ⟨transparent_works, hreach, fun h => ?_⟩
  have hfits := (storable_iff transparent_works (hreach.genuine.2 rfl) hreach.bounded.1).mp h
  have hpeers := hfits.peers
  rw [crowd_card] at hpeers
  exact absurd hpeers (by decide)

/-- The number that a stranger reads out. -/
def strangerNumber (name : Bytes) : Bytes :=
  (computeSafetyNumber transparentCrypto name strangerIdentity.signPublicKey
    strangerIdentity.mldsaPublicKey strangerIdentity.dhPublicKey).toOption.getD []

/-- The first stranger is verified. -/
def acquainted : World Bytes Unit :=
  ((Op.verifyPeer (strangerName 0) (strangerNumber (strangerName 0))).run transparentCrypto
    crowdedServer (crowd 1)).2

/-- And has a session with Alice. -/
def befriended : World Bytes Unit :=
  ((Op.initiate (strangerName 0) (ascii "hi")).run transparentCrypto crowdedServer acquainted).2

theorem befriended_states :
    (crowd 0).client.trustedPeerIdentities.keys.card < kMaxPersistedPeers ∧
    reserved (crowd 0).client + peerSize ⟨strangerName 0, strangerIdentity⟩ ≤ kMaxStateFileBytes ∧
    (acquainted.client.trustedPeerIdentities.lookup (strangerName 0)).isSome ∧
    acquainted.client.sessionsByPeer.keys.card < kMaxPersistedSessions ∧
    reserved acquainted.client + 2 * (strangerName 0).length + 500 ≤ kMaxStateFileBytes ∧
    befriended.client.sessionsByPeer.keys.card = 1 := by
  decide +kernel

/-- Room for the identity of a stranger that Alice does not know. -/
theorem initiateRoom_unknown {name plaintext : Bytes} {w : World Bytes Unit}
    (hnew : w.client.trustedPeerIdentities.lookup name = none)
    (hcard : w.client.trustedPeerIdentities.keys.card < kMaxPersistedPeers)
    (hsize : reserved w.client + peerSize ⟨name, strangerIdentity⟩ ≤ kMaxStateFileBytes) :
    InitiateRoom transparentCrypto crowdedServer name plaintext w := by
  refine ⟨fun bundle s hoffered _ => ?_, fun ready => ?_⟩
  · obtain rfl := Except.ok.inj (Prod.mk.inj hoffered.acquired).1
    exact ⟨hcard, hsize⟩
  · obtain ⟨id, hid, -⟩ := ready.fetched.identity_ok
    rw [hnew] at hid
    cases hid

/-- Room for the handshake with one whom she knows. -/
theorem initiateRoom_known {name plaintext : Bytes} {w : World Bytes Unit}
    (hknown : (w.client.trustedPeerIdentities.lookup name).isSome)
    (hcard : w.client.sessionsByPeer.keys.card < kMaxPersistedSessions)
    (hsize : reserved w.client + 2 * name.length + 500 ≤ kMaxStateFileBytes) :
    InitiateRoom transparentCrypto crowdedServer name plaintext w := by
  refine ⟨fun bundle s _ hnew => ?_, fun ready => ⟨fun _ => hcard, ?_⟩⟩
  · rw [hnew] at hknown
    cases hknown
  · have hid : ready.handshake.fields.sessionId.length = 32 := by
      have hsession : ready.handshake.fields.sessionId = hexEncode ready.handshake.random := rfl
      rw [hsession, length_hexEncode, ← Except.ok.inj ready.drawn.random_ok, List.length_append,
        List.length_replicate]
      rfl
    have hhash : ready.handshake.transcriptHash.length ≤ 32 := by
      have hsha : transparentCrypto.sha256 (initialTranscript ready.handshake.fields) =
          .ok ready.handshake.transcriptHash := ready.handshake.hash_ok
      rw [← Except.ok.inj hsha]
      exact List.length_take_le _ _
    simp only [sessionReserve, guardSize, List.map_cons, List.map_nil, List.sum_cons, List.sum_nil,
      length_hexEncode, hid, x25519KeySize]
    omega

/-- Room for a new identity. -/
theorem createRoom_transparent {userId : Bytes} (hlen : userId.length ≤ 1000)
    (w : World Bytes Unit) : CreateRoom transparentCrypto userId w := by
  rintro - ⟨_, signKey, _, mldsaKey, _, dhKey, spkEcSeed, spkEc, spkPqSeed, spkPq, ecSignature,
    ecSignatureMldsa, pqSignature, pqSignatureMldsa, hsign, hmldsa, hdh, hspkEc, hspkPq, hec,
    hecMldsa, hpq, hpqMldsa⟩
  obtain rfl := Except.ok.inj hsign
  obtain rfl := Except.ok.inj hmldsa
  obtain rfl := Except.ok.inj hdh
  obtain rfl := Except.ok.inj hspkEc
  obtain rfl := Except.ok.inj hspkPq
  obtain rfl := Except.ok.inj hec
  obtain rfl := Except.ok.inj hecMldsa
  obtain rfl := Except.ok.inj hpq
  obtain rfl := Except.ok.inj hpqMldsa
  have hinputs : ∀ n : Nat,
      (buildEcPrekeySignInput 1 (be32 (.ofNat n)) : Bytes).length ≤ 100 ∧
        (buildPqPrekeySignInput 1 (be32 (.ofNat n)) : Bytes).length ≤ 100 := fun n =>
    ⟨Nat.le_of_ble_eq_true rfl, Nat.le_of_ble_eq_true rfl⟩
  have hfour : ∀ n : Nat, (be32 (.ofNat n)).length = 4 := fun _ => rfl
  have hnames : kLocalStatePayloadMagic.length + (kProtocolVersion : Bytes).length ≤ 100 := by
    decide
  have hfixed : wrapperSize + poolsReserve ≤ 100000 := by decide
  have hmax : kMaxStateFileBytes = 16777216 := rfl
  obtain ⟨hec, -⟩ := hinputs spkEcSeed
  obtain ⟨-, hpq⟩ := hinputs spkPqSeed
  show wrapperSize + identitySize _ + poolsReserve + 0 + 0 + 0 + 0 ≤ _
  simp only [identitySize, keyPairSize, signedPrekeySize, IdentityRun.install, Client.blank,
    List.length_append, hfour, mldsaPrivateKeySize, mlkemPrivateKeySize]
  omega

/-- **Alice can be stored with a session.** -/
theorem RoomyRun.storable_befriended :
    befriended.client.sessionsByPeer.keys.card = 1 ∧
      Storable transparent someEnvironment befriended.client := by
  obtain ⟨hpeers, hsize, hknown, hsessions, hsize', hbefriended⟩ := befriended_states
  have hcreate : RoomyRun (· = transparentCrypto) true (crowd 0) := by
    have h := RoomyRun.create (P := (· = transparentCrypto)) rfl (ascii "alice")
      (.start emptyWorld rfl rfl) (createRoom_transparent (by decide) _)
    rwa [create_emptyWorld.1] at h
  have hnew : (crowd 0).client.trustedPeerIdentities.lookup (strangerName 0) = none := by
    rw [create_emptyWorld.2, Finmap.lookup_empty]
  have hcrowd : RoomyRun (· = transparentCrypto) true (crowd (0 + 1)) := by
    rw [crowd]
    exact .op (P := (· = transparentCrypto)) rfl crowdedServer (.initiate (strangerName 0) [])
      hcreate (initiateRoom_unknown hnew hpeers hsize)
  have hverified : RoomyRun (· = transparentCrypto) true acquainted := by
    rw [acquainted]
    exact .op (P := (· = transparentCrypto)) rfl crowdedServer (.verifyPeer _ _) hcrowd trivial
  have hsession : RoomyRun (· = transparentCrypto) true befriended := by
    rw [befriended]
    exact .op (P := (· = transparentCrypto)) rfl crowdedServer (.initiate (strangerName 0) _)
      hverified (initiateRoom_known hknown hsessions hsize')
  exact ⟨hbefriended, RoomyRun.storable (P := (· = transparentCrypto)) transparent_works
    (fun d hd => hd ▸ .refl d) hsession⟩

end Crowd

end StateFile

end PqChat
