/-
# The one place where a bundle is published

Two calls of a client publish: `PublishPrekeys`, and `ProcessInbox` when keys have been used up.
`publishPoint` is the state in which they do, if they do.  Up to that point and from there on a
call is a sequence of moves in which the server sees no bundle (`Op.run_of_publishPoint`), so a
fact about bundles has to be looked at in one place only.

The second half is about what can be in a bundle: the ids of the one-time keys of a client are
distinct, whatever its run was and whatever provider it had.
-/
import PqChat.Client.Keys

set_option linter.unusedSectionVars false

namespace PqChat

variable {B S : Type} [ByteString B] [DecidableEq B]

/-! ## 1. Where a call publishes -/

/-- The state in which a call publishes, if it does. -/
def Op.publishPoint (c : Crypto B) (server : ServerApi B S) : Op B → World B S →
    Option (World B S)
  | .publish, w => some w
  | .processInbox, w =>
    match drainPasses c server kMaxInboxDrainPasses w.client.pendingInboxAckUpToId [] w with
    | (.error _, _) => none
    | (.ok drained, w₁) =>
      if w₁.client.prekeysDirty then
        match refillOneTimePrekeyPools c w₁, drained.2 with
        | (.error _, _), none => none
        | (_, w₂), _ => some w₂
      else none
  | _, _ => none

/-- The same server to a call that never publishes. -/
def ServerApi.withoutPublishing (server : ServerApi B S) : ServerApi B S :=
  { server with publishBundle := fun _ => pure () }

/-- The calls of a server other than `PublishBundle` do what the observer says. -/
structure ServerApi.Otherwise (server : ServerApi B S) (v : Observer S) : Prop where
  acquireBundle : ∀ u s, v.quiet s (server.acquireBundleForSession u s).2
  enqueueEnvelope : server.Enqueues v
  drainInbox : ∀ u a s, v.quiet s (server.drainInbox u a s).2

section Moves

variable {P : Crypto B → Prop} {v : Observer S} {w₀ : World B S} {c : Crypto B}
  {server : ServerApi B S}

open Proc (Preserves)

theorem ServerApi.Otherwise.quiet (h : server.Otherwise v) : server.withoutPublishing.Quiet v :=
  ⟨fun _ _ => v.refl _, h.acquireBundle, h.drainInbox⟩

/-- The end of `ProcessInbox`. -/
theorem finishInbox_moves (plaintexts : List B) (firstError : Option String) :
    Preserves (Moves P v w₀) (match plaintexts, firstError with
      | [], some e => Proc.fail e
      | plaintexts, _ => do
        let save ← Proc.attempt saveLocalState
        match save, plaintexts with
        | .error e, [] => Proc.fail ("persist local state failed: " ++ e)
        | _, _ => pure plaintexts : Proc (World B S) (List B)) := by
  split
  · exact .fail _
  · refine .bind (.attempt saveLocalState_moves) fun save => ?_
    split
    · exact .fail _
    · exact .pure _

/-- What comes after the bundle is published. -/
theorem published_moves (v : Observer S) (server : ServerApi B S) (firstError : Option String)
    (w : World B S) : Moves P v (publishPrekeys c server w).2 ((do
      let publish ← Proc.attempt (publishPrekeys c server)
      match publish with
      | .error e => pure (firstError.or (some ("prekey republish failed: " ++ e)))
      | .ok _ => do
        modifyClient fun cl => { cl with prekeysDirty := false }
        pure firstError : Proc (World B S) (Option String)) w).2 := by
  rcases h : publishPrekeys c server w with ⟨e | u, w'⟩
  · rw [Proc.bind_ok (Proc.attempt_apply h)]
    exact .refl
  · rw [Proc.bind_ok (Proc.attempt_apply h)]
    exact .single (.flags w' false w'.client.pendingInboxAckUpToId)

/-- The refill and republish of `ProcessInbox`, from where the draining ends. -/
theorem republishIfDirty_of_publishPoint (hc : P c) (v : Observer S) (server : ServerApi B S)
    (firstError : Option String) (w : World B S) :
    if w.client.prekeysDirty then
      match refillOneTimePrekeyPools c w, firstError with
      | (.error _, _), none => Moves P v w (republishIfDirty c server firstError w).2
      | (_, w'), _ => Moves P v w w' ∧
          Moves P v (publishPrekeys c server w').2 (republishIfDirty c server firstError w).2
    else Moves P v w (republishIfDirty c server firstError w).2 := by
  have hrefill : Moves P v w (refillOneTimePrekeyPools c w).2 :=
    refillOneTimePrekeyPools_moves hc w .refl
  rw [republishIfDirty, Proc.get_bind_apply]
  by_cases hd : w.client.prekeysDirty = true
  · rw [if_pos hd, if_pos hd]
    rcases h : refillOneTimePrekeyPools c w with ⟨e | u, w'⟩
    · rw [h] at hrefill
      rw [Proc.bind_ok (Proc.attempt_apply h)]
      rcases firstError with _ | e'
      · exact hrefill
      · exact ⟨hrefill, published_moves v server (some e') w'⟩
    · rw [h] at hrefill
      rw [Proc.bind_ok (Proc.attempt_apply h)]
      exact ⟨hrefill, published_moves v server firstError w'⟩
  · rw [if_neg hd, if_neg hd]
    exact .refl

/-- What `ProcessInbox` goes through. -/
theorem processInbox_of_publishPoint (hc : P c) (hs : server.Otherwise v) (w : World B S) :
    match Op.publishPoint c server .processInbox w with
    | none => Moves P v w (processInbox c server w).2
    | some w' => Moves P v w w' ∧
        Moves P v (publishPrekeys c server w').2 (processInbox c server w).2 := by
  have hdrain : Moves P v w _ := drainPasses_moves hc hs.drainInbox kMaxInboxDrainPasses
    w.client.pendingInboxAckUpToId [] w .refl
  simp only [Op.publishPoint]
  rcases h : drainPasses c server kMaxInboxDrainPasses w.client.pendingInboxAckUpToId [] w with
    ⟨e | drained, w₁⟩
  · rw [h] at hdrain
    rw [processInbox, Proc.get_bind_apply, Proc.bind_error h]
    exact hdrain
  · rw [h] at hdrain
    have hafter : Moves P v (republishIfDirty c server drained.2 w₁).2
        (processInbox c server w).2 := by
      rw [processInbox, Proc.get_bind_apply, Proc.bind_ok h]
      rcases hr : republishIfDirty c server drained.2 w₁ with ⟨e | firstError, w₂⟩
      · rw [Proc.bind_error hr]
      · rw [Proc.bind_ok hr]
        exact finishInbox_moves _ _ w₂ .refl
    have hpoint := republishIfDirty_of_publishPoint hc v server drained.2 w₁
    dsimp only
    by_cases hd : w₁.client.prekeysDirty = true
    · rw [if_pos hd] at hpoint ⊢
      rcases hrefill : refillOneTimePrekeyPools c w₁ with ⟨e | u, w₂⟩ <;> rw [hrefill] at hpoint
      · rcases hfirst : drained.2 with _ | e'
        · rw [hfirst] at hpoint hafter
          exact hdrain.trans (hpoint.trans hafter)
        · rw [hfirst] at hpoint hafter
          exact ⟨hdrain.trans hpoint.1, hpoint.2.trans hafter⟩
      · exact ⟨hdrain.trans hpoint.1, hpoint.2.trans hafter⟩
    · rw [if_neg hd] at hpoint ⊢
      exact hdrain.trans (hpoint.trans hafter)

/-- `PublishPrekeys` hands over the bundle and goes on by moves. -/
theorem publishPrekeys_of_call (c : Crypto B) (server : ServerApi B S) (w : World B S) :
    Moves P v
      { w with server := (server.publishBundle (w.client.buildPrekeyBundle c) w.server).2 }
      (publishPrekeys c server w).2 := by
  rw [publishPrekeys, Proc.get_bind_apply]
  rcases hr : server.publishBundle (w.client.buildPrekeyBundle c) w.server with ⟨e | u, s⟩
  · rw [Proc.bind_error (callServer_of_eq hr)]
  · rw [Proc.bind_ok (callServer_of_eq hr)]
    have hrest : Preserves (Moves P v { w with server := s }) (do
        modifyClient fun cl => { cl with prekeysDirty := false }
        Proc.within "persist local state failed: " saveLocalState : Proc (World B S) Unit) :=
      .bind (setFlags_moves fun cl => (false, cl.pendingInboxAckUpToId)) fun _ =>
        .within _ saveLocalState_moves
    exact hrest _ .refl

/-- **A call is a sequence of moves, but for the bundle it may publish.** -/
theorem Op.run_of_publishPoint (hc : P c) (hs : server.Otherwise v)
    (op : Op B) (hv : op.IsVerify → v.verify) (w : World B S) :
    match op.publishPoint c server w with
    | none => Moves P v w (op.run c server w).2
    | some w' => Moves P v w w' ∧
        Moves P v (publishPrekeys c server w').2 (op.run c server w).2 := by
  have hrun := Op.run_moves hc hs.quiet op (fun _ => hs.enqueueEnvelope) hv w
  cases op with
  | publish =>
    refine ⟨.refl, ?_⟩
    rw [Op.run, Proc.bind_pure_apply]
  | processInbox => exact processInbox_of_publishPoint hc hs w
  -- any other call does not see what `PublishBundle` is
  | _ => exact hrun

/-- The next save goes through: the client is within the limits of the file format, and the
write takes place. -/
structure World.CanSave (w : World B S) : Prop where
  trusted : w.client.trustedPeerIdentities.keys.card ≤ kMaxPersistedPeers
  sessions : w.client.sessionsByPeer.keys.card ≤ kMaxPersistedSessions
  disk : ∀ e, w.diskOutcome w.diskUses ≠ .failed e

theorem saveLocalState_of_canSave {w : World B S} (h : w.CanSave) :
    (saveLocalState w).2 = { w with disk := some w.client, diskUses := w.diskUses + 1 } := by
  rw [saveLocalState, Proc.get_bind_apply, Proc.require_pos h.trusted, Proc.pure_bind,
    Proc.require_pos h.sessions, Proc.pure_bind, Proc.modify_bind_apply]
  rcases ho : w.diskOutcome w.diskUses with _ | e | e
  · rfl
  · exact absurd ho (h.disk e)
  · rfl

end Moves

/-! ## 2. What is in a bundle -/

/-- The ids of the one-time keys of each kind are distinct. -/
structure Client.DistinctIds (cl : Client B) : Prop where
  ec : (cl.oneTimeEcPool.map (·.publicPart.id)).Nodup
  pq : (cl.oneTimePqPool.map (·.publicPart.id)).Nodup

theorem Move.distinctIds {P : Crypto B → Prop} {v : Observer S} {w w' : World B S}
    (hm : Move P v w w') (h : w.client.DistinctIds) : w'.client.DistinctIds := by
  cases hm with
  | addEc hc hgen h0 hfree =>
    exact ⟨nodup_ids_append h.ec fun k hk he => hfree (Or.inl ⟨k, hk, he⟩), h.pq⟩
  | addPq hc hgen h0 hfree =>
    exact ⟨h.ec, nodup_ids_append h.pq fun k hk he => hfree (Or.inr ⟨k, hk, he⟩)⟩
  | accept hc hm run =>
    exact ⟨h.ec.sublist (List.eraseP_sublist.map _), h.pq.sublist (List.eraseP_sublist.map _)⟩
  | _ => exact ⟨h.ec, h.pq⟩

theorem Client.DistinctIds.reload {cl : Client B} (h : cl.DistinctIds) :
    cl.reload.DistinctIds := by
  have hmap : ∀ pool : List (OneTimeKey B), (pool.map OneTimeKey.reload).map (·.publicPart.id) =
      pool.map (·.publicPart.id) := fun pool => List.map_map
  exact ⟨(hmap _).symm ▸ h.ec, (hmap _).symm ▸ h.pq⟩

theorem Boot.distinctIds {P : Crypto B → Prop} {w w₁ : World B S} (hb : Boot P w w₁)
    (h : ∀ d, w.disk = some d → d.DistinctIds) : w₁.client.DistinctIds := by
  cases hb with
  | load saved n hdisk => exact (h saved hdisk).reload
  | identity hc userId d n run => exact ⟨List.nodup_nil, List.nodup_nil⟩

/-- No key is in the bundle twice. -/
theorem Client.DistinctIds.bundle {cl : Client B} (h : cl.DistinctIds) (c : Crypto B) :
    (cl.buildPrekeyBundle c).oneTimeEc.Nodup ∧ (cl.buildPrekeyBundle c).oneTimePq.Nodup := by
  have hids : ∀ pool : List (OneTimeKey B), (pool.map (·.publicPart.id)).Nodup →
      (pool.map OneTimeKey.publicPart).Nodup := fun pool h =>
    List.Nodup.of_map OneTimePrekey.id (by rwa [List.map_map])
  exact ⟨hids _ h.ec, hids _ h.pq⟩

end PqChat
