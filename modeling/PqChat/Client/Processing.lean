/-
# `ProcessInbox`, step by step

A call of `ProcessInbox` drains a page, handles its envelopes, acknowledges them with the next
drain, and so on; at the end it publishes and saves.  The process may stop at any point of this,
so the call is cut into steps.  A `Desk` is a client together with the place it has got to in
`ProcessInbox` and the local variables it has there, and `Desk.next` is the next step.  A whole
call is a sequence of steps (`processInbox_steps`).

Three fields are GHOSTS, and no step looks at them: `handled` are the envelopes that this process
has handled with success, each with its plaintext, oldest first; `earlier` are those that the
processes before it have handled; `output` is what the calls of this process have returned.

The second section says which parts of a client the other operations leave alone: whose mailbox
it reads, and what it will acknowledge next.
-/
import PqChat.Client.Run

set_option linter.unusedSectionVars false

namespace PqChat

variable {B S : Type} [ByteString B] [DecidableEq B]

/-! ## 1. Steps -/

/-- A place in `ProcessInbox`. -/
inductive Phase (B : Type)
  /-- No client is up. -/
  | down
  /-- Between two calls. -/
  | idle
  /-- `DrainInbox` is next, with this `ack_to_send`. -/
  | draining (passes : Nat) (ackToSend : Option UInt64)
  /-- These envelopes of a page are left. -/
  | handling (passes : Nat) (items : List (InboxEnvelope B)) (maxAckable : Option UInt64)
  /-- The loop has ended. -/
  | closing (firstError : Option String)
  deriving DecidableEq

/-- A client at its inbox. -/
structure Desk (B S : Type) where
  world : World B S
  phase : Phase B
  plaintexts : List B
  handled : List (InboxEnvelope B × B)
  earlier : List (InboxEnvelope B × B)
  output : List B

/-- `pending_inbox_ack_up_to_id_` is set. -/
def World.withPending (w : World B S) (pending : Option UInt64) : World B S :=
  { w with client := { w.client with pendingInboxAckUpToId := pending } }

/-- The end of `ProcessInbox`, behind the loop. -/
def closeInbox (c : Crypto B) (server : ServerApi B S) (plaintexts : List B)
    (firstError : Option String) : Proc (World B S) (List B) := do
  let firstError ← republishIfDirty c server firstError
  match plaintexts, firstError with
  | [], some e => Proc.fail e
  | plaintexts, _ => do
    let save ← Proc.attempt saveLocalState
    match save, plaintexts with
    | .error e, [] => Proc.fail ("persist local state failed: " ++ e)
    | _, _ => pure plaintexts

namespace Desk

/-- `DrainInbox`, and what is done with its answer. -/
def drain (server : ServerApi B S) (passes : Nat) (ackToSend : Option UInt64) (d : Desk B S) :
    Desk B S :=
  let drained := callServer (server.drainInbox d.world.client.userId ackToSend) d.world
  match drained.1 with
  | .error e => { d with
      world := drained.2.withPending (ackToSend.or drained.2.client.pendingInboxAckUpToId)
      phase :=
        if d.plaintexts = [] then .idle else .closing (some ("drain inbox failed: " ++ e)) }
  | .ok items => { d with
      world := drained.2.withPending none
      phase := if items = [] then .closing none else .handling passes items none }

/-- The next envelope of a page. -/
def handle (c : Crypto B) (passes : Nat) (item : InboxEnvelope B)
    (rest : List (InboxEnvelope B)) (maxAckable : Option UInt64) (d : Desk B S) : Desk B S :=
  let status := handleEnvelope c item.envelope d.world
  match status.1 with
  | .error e => { d with
      world := status.2.withPending (maxAckable.or status.2.client.pendingInboxAckUpToId)
      phase := .closing (some e) }
  | .ok plaintext => { d with
      world := status.2
      phase := .handling passes rest (some item.inboxId)
      plaintexts := d.plaintexts ++ [plaintext]
      handled := d.handled ++ [(item, plaintext)] }

/-- The call returns. -/
def close (c : Crypto B) (server : ServerApi B S) (firstError : Option String) (d : Desk B S) :
    Desk B S :=
  let finished := closeInbox c server d.plaintexts firstError d.world
  { d with
    world := finished.2
    phase := .idle
    plaintexts := []
    output := d.output ++ finished.1.toOption.getD [] }

/-- The next step.  Between two calls it is the beginning of the next one. -/
def next (c : Crypto B) (server : ServerApi B S) (d : Desk B S) : Desk B S :=
  match d.phase with
  | .down => d
  | .idle => { d with
      phase := .draining kMaxInboxDrainPasses d.world.client.pendingInboxAckUpToId
      plaintexts := [] }
  | .draining 0 _ => { d with phase := .closing none }
  | .draining (passes + 1) ackToSend => d.drain server passes ackToSend
  | .handling passes [] maxAckable => { d with
      world := d.world.withPending (maxAckable.or d.world.client.pendingInboxAckUpToId)
      phase := .draining passes maxAckable }
  | .handling passes (item :: rest) maxAckable => d.handle c passes item rest maxAckable
  | .closing firstError => d.close c server firstError

/-- Any number of steps. -/
abbrev Steps (c : Crypto B) (server : ServerApi B S) : Desk B S → Desk B S → Prop :=
  Relation.ReflTransGen fun d d' => d' = d.next c server

section Steps

variable {c : Crypto B} {server : ServerApi B S} {d : Desk B S}

theorem drain_of_error {passes : Nat} {ackToSend : Option UInt64} {e : String} {s : S}
    (h : server.drainInbox d.world.client.userId ackToSend d.world.server = (.error e, s)) :
    d.drain server passes ackToSend = { d with
      world := { d.world with server := s }.withPending
        (ackToSend.or d.world.client.pendingInboxAckUpToId)
      phase := if d.plaintexts = [] then .idle
        else .closing (some ("drain inbox failed: " ++ e)) } := by
  rw [drain, callServer_of_eq h]

theorem drain_of_ok {passes : Nat} {ackToSend : Option UInt64}
    {items : List (InboxEnvelope B)} {s : S}
    (h : server.drainInbox d.world.client.userId ackToSend d.world.server = (.ok items, s)) :
    d.drain server passes ackToSend = { d with
      world := { d.world with server := s }.withPending none
      phase := if items = [] then .closing none else .handling passes items none } := by
  rw [drain, callServer_of_eq h]

theorem steps_next {d' : Desk B S} (h : (d.next c server).Steps c server d') :
    d.Steps c server d' :=
  .head rfl h

/-- A step takes nothing away from what has been handled. -/
theorem handled_prefix_next (c : Crypto B) (server : ServerApi B S) (d : Desk B S) :
    d.handled <+: (d.next c server).handled := by
  unfold next
  split
  case h_4 =>
    unfold drain
    dsimp only
    split <;> exact List.prefix_rfl
  case h_6 =>
    unfold handle
    dsimp only
    split
    · exact List.prefix_rfl
    · exact List.prefix_append _ _
  all_goals exact List.prefix_rfl

theorem Steps.handled_prefix {d' : Desk B S} (h : d.Steps c server d') :
    d.handled <+: d'.handled := by
  induction h with
  | refl => exact List.prefix_rfl
  | tail _ hstep ih =>
    rw [hstep]
    exact ih.trans (handled_prefix_next c server _)

variable (c server) in
/-- A page, up to its end or to the first envelope that fails. -/
theorem processItems_steps (passes : Nat) : ∀ (items : List (InboxEnvelope B))
    (maxAckable : Option UInt64) (d : Desk B S), d.phase = .handling passes items maxAckable →
    ∃ batch d', (processItems c items d.world).1 = .ok batch ∧ d.Steps c server d' ∧
      d'.plaintexts = d.plaintexts ++ batch.plaintexts ∧ d'.output = d.output ∧
      (batch.error = none →
        d'.phase = .handling passes [] (batch.maxAckableInboxId.or maxAckable) ∧
        d'.world = (processItems c items d.world).2) ∧
      ∀ e, batch.error = some e → d'.phase = .closing (some e) ∧
        d'.world = (processItems c items d.world).2.withPending
          ((batch.maxAckableInboxId.or maxAckable).or
            (processItems c items d.world).2.client.pendingInboxAckUpToId) := by
  intro items
  induction items with
  | nil =>
    intro maxAckable d hphase
    refine ⟨⟨[], none, none⟩, d, rfl, .refl, by simp, rfl, fun _ => ⟨hphase, rfl⟩, ?_⟩
    intro e he
    cases he
  | cons item rest ih =>
    intro maxAckable d hphase
    have hnext : d.next c server = d.handle c passes item rest maxAckable := by
      rw [next, hphase]
    rcases hstatus : handleEnvelope c item.envelope d.world with ⟨e | plaintext, w⟩
    · have hitems : processItems c (item :: rest) d.world = (.ok ⟨[], none, some e⟩, w) :=
        Proc.bind_ok (Proc.attempt_apply hstatus) _
      rw [hitems]
      refine ⟨⟨[], none, some e⟩, d.next c server, rfl, steps_next .refl, ?_⟩
      rw [hnext, handle, hstatus]
      refine ⟨by simp, rfl, fun h => ?_, fun e' he => ?_⟩
      · cases h
      · obtain rfl := Option.some.inj he
        exact ⟨rfl, rfl⟩
    · let d₁ : Desk B S := d.next c server
      have hd₁ : d₁ = { d with
          world := w
          phase := .handling passes rest (some item.inboxId)
          plaintexts := d.plaintexts ++ [plaintext]
          handled := d.handled ++ [(item, plaintext)] } := by
        change d.next c server = _
        rw [hnext, handle, hstatus]
      obtain ⟨batch, d', hbatch, hsteps, hplain, hout, hok, herr⟩ :=
        ih (some item.inboxId) d₁ (by rw [hd₁])
      have hworld : d₁.world = w := by rw [hd₁]
      rw [hworld] at hbatch hok herr
      have hitems : processItems c (item :: rest) d.world =
          (.ok ⟨plaintext :: batch.plaintexts, batch.maxAckableInboxId.or (some item.inboxId),
            batch.error⟩, (processItems c rest w).2) := by
        refine (Proc.bind_ok (Proc.attempt_apply hstatus) _).trans ?_
        exact Proc.bind_ok (Prod.ext hbatch rfl) _
      have hmax : (batch.maxAckableInboxId.or (some item.inboxId)).or maxAckable =
          batch.maxAckableInboxId.or (some item.inboxId) := by
        cases batch.maxAckableInboxId <;> rfl
      rw [hitems]
      refine ⟨_, d', rfl, steps_next hsteps, ?_, ?_, ?_, ?_⟩
      · rw [hplain, hd₁]
        simp
      · rw [hout, hd₁]
      · intro he
        rw [hmax]
        exact hok he
      · intro e he
        rw [hmax]
        exact herr e he

section Passes

variable {passes : Nat} {ackToSend : Option UInt64} {plaintexts : List B} {w w₁ w₂ : World B S}
  {e : String} {items : List (InboxEnvelope B)} {batch : BatchResult B}

theorem drainPasses_of_error
    (h : callServer (server.drainInbox w.client.userId ackToSend) w = (.error e, w₁)) :
    drainPasses c server (passes + 1) ackToSend plaintexts w =
      if plaintexts = [] then (.error ("drain inbox failed: " ++ e),
        w₁.withPending (ackToSend.or w₁.client.pendingInboxAckUpToId))
      else (.ok (plaintexts, some ("drain inbox failed: " ++ e)),
        w₁.withPending (ackToSend.or w₁.client.pendingInboxAckUpToId)) := by
  rw [drainPasses, Proc.get_bind_apply, Proc.bind_ok (Proc.attempt_apply h)]
  dsimp only
  rw [modifyClient, Proc.modify_bind_apply]
  split
  · rfl
  · rfl

theorem drainPasses_of_empty
    (h : callServer (server.drainInbox w.client.userId ackToSend) w = (.ok [], w₁)) :
    drainPasses c server (passes + 1) ackToSend plaintexts w =
      (.ok (plaintexts, none), w₁.withPending none) := by
  rw [drainPasses, Proc.get_bind_apply, Proc.bind_ok (Proc.attempt_apply h)]
  rfl

theorem drainPasses_of_page (passes : Nat) (plaintexts : List B)
    (h : callServer (server.drainInbox w.client.userId ackToSend) w = (.ok items, w₁))
    (hitems : items ≠ []) (hbatch : processItems c items (w₁.withPending none) = (.ok batch, w₂)) :
    (∀ e, batch.error = some e →
      drainPasses c server (passes + 1) ackToSend plaintexts w =
        (.ok (plaintexts ++ batch.plaintexts, some e), w₂.withPending
          (batch.maxAckableInboxId.or w₂.client.pendingInboxAckUpToId))) ∧
    (batch.error = none →
      drainPasses c server (passes + 1) ackToSend plaintexts w =
        drainPasses c server passes batch.maxAckableInboxId (plaintexts ++ batch.plaintexts)
          (w₂.withPending (batch.maxAckableInboxId.or w₂.client.pendingInboxAckUpToId))) := by
  rw [drainPasses, Proc.get_bind_apply, Proc.bind_ok (Proc.attempt_apply h)]
  dsimp only
  rw [modifyClient, Proc.modify_bind_apply, if_neg hitems]
  refine ⟨fun e he => ?_, fun he => ?_⟩
  · refine (Proc.bind_ok hbatch _).trans ?_
    rw [he]
    rfl
  · refine (Proc.bind_ok hbatch _).trans ?_
    rw [he]
    rfl

end Passes

variable (c server) in
/-- The loop, up to where it ends or the call fails. -/
theorem drainPasses_steps : ∀ (passes : Nat) (ackToSend : Option UInt64) (d : Desk B S),
    d.phase = .draining passes ackToSend →
    ∃ d', d.Steps c server d' ∧ d'.output = d.output ∧
      d'.world = (drainPasses c server passes ackToSend d.plaintexts d.world).2 ∧
      (∀ drained, (drainPasses c server passes ackToSend d.plaintexts d.world).1 = .ok drained →
        d'.phase = .closing drained.2 ∧ d'.plaintexts = drained.1) ∧
      ∀ e, (drainPasses c server passes ackToSend d.plaintexts d.world).1 = .error e →
        d'.phase = .idle := by
  intro passes
  induction passes with
  | zero =>
    intro ackToSend d hphase
    refine ⟨d.next c server, steps_next .refl, ?_⟩
    rw [next, hphase]
    refine ⟨rfl, rfl, fun drained h => ?_, fun e h => ?_⟩
    · obtain rfl := Except.ok.inj h
      exact ⟨rfl, rfl⟩
    · cases h
  | succ passes ih =>
    intro ackToSend d hphase
    have hnext : d.next c server = d.drain server passes ackToSend := by
      rw [next, hphase]
    let d₁ : Desk B S := d.next c server
    rcases hdrained : callServer (server.drainInbox d.world.client.userId ackToSend) d.world with
      ⟨e | items, w⟩
    · -- the drain has failed
      refine ⟨d₁, steps_next .refl, ?_⟩
      have hd₁ : d₁ = { d with
          world := w.withPending (ackToSend.or w.client.pendingInboxAckUpToId)
          phase := if d.plaintexts = [] then .idle
            else .closing (some ("drain inbox failed: " ++ e)) } := by
        change d.next c server = _
        rw [hnext, drain, hdrained]
      rw [drainPasses_of_error hdrained, hd₁]
      by_cases hempty : d.plaintexts = []
      · rw [if_pos hempty, if_pos hempty]
        refine ⟨rfl, rfl, fun drained h => ?_, fun e h => rfl⟩
        cases h
      · rw [if_neg hempty, if_neg hempty]
        refine ⟨rfl, rfl, fun drained h => ?_, fun e h => ?_⟩
        · obtain rfl := Except.ok.inj h
          exact ⟨rfl, rfl⟩
        · cases h
    · have hd₁ : d₁ = { d with
          world := w.withPending none
          phase := if items = [] then .closing none else .handling passes items none } := by
        change d.next c server = _
        rw [hnext, drain, hdrained]
      by_cases hitems : items = []
      · -- nothing is left
        subst hitems
        refine ⟨d₁, steps_next .refl, ?_⟩
        rw [drainPasses_of_empty hdrained, hd₁]
        refine ⟨rfl, rfl, fun drained h => ?_, fun e h => ?_⟩
        · obtain rfl := Except.ok.inj h
          exact ⟨rfl, rfl⟩
        · cases h
      · rw [if_neg hitems] at hd₁
        obtain ⟨batch, d₂, hbatch, hsteps, hplain, hout, hok, herr⟩ :=
          processItems_steps c server passes items none d₁ (by rw [hd₁])
        have hworld : d₁.world = w.withPending none := by rw [hd₁]
        have hplain₁ : d₁.plaintexts = d.plaintexts := by rw [hd₁]
        rw [hworld, Option.or_none] at hok herr
        rw [hworld] at hbatch
        rw [hplain₁] at hplain
        have hsteps₂ : d.Steps c server d₂ := steps_next hsteps
        obtain ⟨hpassesErr, hpassesOk⟩ := drainPasses_of_page passes d.plaintexts
          hdrained hitems (Prod.ext hbatch rfl)
        rcases herror : batch.error with _ | e
        · -- the next pass
          obtain ⟨hphase₂, hworld₂⟩ := hok herror
          let d₃ : Desk B S := d₂.next c server
          have hd₃ : d₃ = { d₂ with
              world := d₂.world.withPending
                (batch.maxAckableInboxId.or d₂.world.client.pendingInboxAckUpToId)
              phase := .draining passes batch.maxAckableInboxId } := by
            change d₂.next c server = _
            rw [next, hphase₂]
          obtain ⟨d', hsteps', hout', hrest⟩ := ih batch.maxAckableInboxId d₃ (by rw [hd₃])
          have hcall : drainPasses c server passes batch.maxAckableInboxId d₃.plaintexts d₃.world =
              drainPasses c server (passes + 1) ackToSend d.plaintexts d.world := by
            rw [hpassesOk herror, hd₃, hplain, hworld₂]
          rw [hcall] at hrest
          refine ⟨d', hsteps₂.trans (steps_next hsteps'), ?_, hrest⟩
          rw [hout', hd₃, hout, hd₁]
        · obtain ⟨hphase₂, hworld₂⟩ := herr e herror
          refine ⟨d₂, hsteps₂, by rw [hout, hd₁], ?_⟩
          rw [hpassesErr e herror, hworld₂]
          refine ⟨rfl, fun drained h => ?_, fun e' h => ?_⟩
          · obtain rfl := Except.ok.inj h
            exact ⟨hphase₂, hplain⟩
          · cases h

theorem closeInbox_moves {P : Crypto B → Prop} {v : Observer S} (hc : P c) (hq : server.Quiet v)
    (plaintexts : List B) (firstError : Option String) (w : World B S) :
    Moves P v w (closeInbox c server plaintexts firstError w).2 := by
  have key : Proc.Preserves (Moves P v w) (closeInbox c server plaintexts firstError) := by
    refine .bind (republishIfDirty_moves hc hq _) fun firstError => ?_
    split
    · exact .fail _
    · refine .bind (.attempt saveLocalState_moves) fun save => ?_
      split
      · exact .fail _
      · exact .pure _
  exact key w .refl

/-- The plaintexts are returned, whatever fails at the end. -/
theorem closeInbox_output (plaintexts : List B) (firstError : Option String) (w : World B S) :
    (closeInbox c server plaintexts firstError w).1.toOption.getD [] = plaintexts := by
  have hrepublish : Proc.Succeeds (republishIfDirty c server firstError) := by
    refine .bind .get fun w => .ite (.bind (.attempt _) fun refill => ?_) (.pure _)
    split
    · exact .pure _
    · refine .bind (.attempt _) fun publish => ?_
      split
      · exact .pure _
      · exact .bind (.modify _) fun _ => .pure _
  obtain ⟨firstError', hr⟩ := hrepublish w
  obtain ⟨w', h⟩ : ∃ w', republishIfDirty c server firstError w = (.ok firstError', w') :=
    ⟨_, Prod.ext hr rfl⟩
  rw [closeInbox, Proc.bind_ok h]
  cases plaintexts with
  | nil =>
    cases firstError' with
    | some e => rfl
    | none =>
      dsimp only
      rcases hsave : saveLocalState w' with ⟨e | u, w''⟩
      · rw [Proc.bind_ok (Proc.attempt_apply hsave)]
        rfl
      · rw [Proc.bind_ok (Proc.attempt_apply hsave)]
        rfl
  | cons plaintext plaintexts =>
    dsimp only
    rcases hsave : saveLocalState w' with ⟨e | u, w''⟩
    · rw [Proc.bind_ok (Proc.attempt_apply hsave)]
      rfl
    · rw [Proc.bind_ok (Proc.attempt_apply hsave)]
      rfl

/-- What has been handled has been returned or is about to be. -/
structure Tidy (d : Desk B S) : Prop where
  returned : d.output ++ d.plaintexts = d.handled.map Prod.snd
  idle : d.phase = .idle → d.plaintexts = []

/-- A step keeps the ghosts tidy. -/
theorem Tidy.next (h : d.Tidy) : (d.next c server).Tidy := by
  rw [Desk.next]
  split
  · exact h
  · rename_i hphase
    refine ⟨?_, fun _ => rfl⟩
    rw [← h.returned, h.idle hphase]
  · exact ⟨h.returned, fun h => by cases h⟩
  · rename_i passes ackToSend hphase
    rw [drain]
    split
    · refine ⟨h.returned, fun hidle => ?_⟩
      dsimp only at hidle ⊢
      by_contra hne
      rw [if_neg hne] at hidle
      cases hidle
    · refine ⟨h.returned, fun hidle => ?_⟩
      dsimp only at hidle
      split at hidle
      · cases hidle
      · cases hidle
  · exact ⟨h.returned, fun h => by cases h⟩
  · rw [handle]
    split
    · exact ⟨h.returned, fun h => by cases h⟩
    · refine ⟨?_, fun h => by cases h⟩
      dsimp only
      rw [← List.append_assoc, h.returned, List.map_append]
      rfl
  · rw [close]
    refine ⟨?_, fun _ => rfl⟩
    dsimp only
    rw [closeInbox_output, List.append_nil, h.returned]

/-- **A call of `ProcessInbox` is a sequence of steps.** -/
theorem processInbox_steps (hidle : d.phase = .idle) :
    ∃ d', d.Steps c server d' ∧ d'.phase = .idle ∧
      d'.world = (processInbox c server d.world).2 ∧
      d'.output = d.output ++ (processInbox c server d.world).1.toOption.getD [] := by
  let d₁ : Desk B S := d.next c server
  have hd₁ : d₁ = { d with
      phase := .draining kMaxInboxDrainPasses d.world.client.pendingInboxAckUpToId
      plaintexts := [] } := by
    change d.next c server = _
    rw [next, hidle]
  obtain ⟨d₂, hsteps, hout, hworld, hok, herr⟩ :=
    drainPasses_steps c server _ _ d₁ (by rw [hd₁])
  have hcall : processInbox c server d.world = (do
      let drained ← drainPasses c server kMaxInboxDrainPasses
        d.world.client.pendingInboxAckUpToId []
      closeInbox c server drained.1 drained.2) d.world := rfl
  have hsteps₂ : d.Steps c server d₂ := steps_next hsteps
  rw [hd₁] at hout hworld hok herr
  dsimp only at hout hworld hok herr
  rcases hdrained : drainPasses c server kMaxInboxDrainPasses
      d.world.client.pendingInboxAckUpToId [] d.world with ⟨e | drained, w⟩
  · rw [hdrained] at hworld herr
    refine ⟨d₂, hsteps₂, herr e rfl, ?_, ?_⟩
    · rw [hcall, Proc.bind_error hdrained, hworld]
    · rw [hcall, Proc.bind_error hdrained, hout]
      exact (List.append_nil _).symm
  · rw [hdrained] at hworld hok
    obtain ⟨hphase, hplain⟩ := hok drained rfl
    refine ⟨d₂.next c server, hsteps₂.tail rfl, ?_⟩
    rw [hcall, Proc.bind_ok hdrained, next, hphase]
    dsimp only
    rw [close, hout, hworld, hplain]
    exact ⟨rfl, rfl, rfl⟩

end Steps

end Desk

/-! ## 2. What the other operations leave alone -/

/-- Whose mailbox a client reads, and what it will acknowledge next. -/
def Client.asks (cl : Client B) : B × Option UInt64 := (cl.userId, cl.pendingInboxAckUpToId)

/-- What the client asks for, and that what a stored client asks for is allowed. -/
structure World.Asks (now : B × Option UInt64) (allowed : B × Option UInt64 → Prop)
    (w : World B S) : Prop where
  client : w.client.asks = now
  disk : ∀ saved, w.disk = some saved → allowed saved.asks

section Asks

open Proc (Preserves)

variable {now : B × Option UInt64} {allowed : B × Option UInt64 → Prop} {c : Crypto B}
  {server : ServerApi B S}

theorem modifyClient_asks {f : Client B → Client B} (h : ∀ cl, (f cl).asks = cl.asks) :
    Preserves (World.Asks (S := S) now allowed) (modifyClient f) :=
  .modify fun w hw => ⟨(h w.client).trans hw.client, hw.disk⟩

theorem record_asks (e : Event B) : Preserves (World.Asks (S := S) now allowed) (record e) :=
  .modify fun _ hw => ⟨hw.client, hw.disk⟩

theorem draw_asks : Preserves (World.Asks (B := B) (S := S) now allowed) draw :=
  fun _ hw => ⟨hw.client, hw.disk⟩

theorem callServer_asks {α : Type} (x : Proc S α) :
    Preserves (World.Asks (B := B) now allowed) (callServer x) :=
  .zoom fun _ hw => ⟨hw.client, hw.disk⟩

theorem setSession_asks (peer : B) (s : SessionState B) :
    Preserves (World.Asks (S := S) now allowed) (setSession peer s) :=
  modifyClient_asks fun _ => rfl

theorem saveLocalState_asks (hnow : allowed now) :
    Preserves (World.Asks (B := B) (S := S) now allowed) saveLocalState := by
  refine .bind .get fun w => .bind (.require _ _) fun _ => .bind (.require _ _) fun _ => ?_
  refine .bind (.modify fun _ hw => ⟨hw.client, hw.disk⟩) fun _ => ?_
  have hsave : Preserves (World.Asks (S := S) now allowed)
      (Proc.modify fun w => { w with disk := some w.client }) := by
    refine .modify fun w hw => ⟨hw.client, fun saved hsaved => ?_⟩
    obtain rfl := Option.some.inj hsaved
    rw [hw.client]
    exact hnow
  split
  · exact hsave
  · exact .fail _
  · exact .bind hsave fun _ => .fail _

theorem generateX25519_asks :
    Preserves (World.Asks (S := S) now allowed) (generateX25519 c) :=
  .bind draw_asks fun _ => .bind (.ofExcept _ _) fun _ => .bind (record_asks _) fun _ => .pure _

theorem generateMlKem_asks :
    Preserves (World.Asks (S := S) now allowed) (generateMlKem c) :=
  .bind draw_asks fun _ => .bind (.ofExcept _ _) fun _ => .bind (record_asks _) fun _ => .pure _

/-! ### Prekeys -/

theorem generateUniqueOneTimePrekeyId_asks (attempts : Nat) :
    Preserves (World.Asks (S := S) now allowed) (generateUniqueOneTimePrekeyId c attempts) := by
  induction attempts with
  | zero => exact .fail _
  | succ attempts ih =>
    exact .bind draw_asks fun _ => .bind (.ofExcept _ _) fun _ => .bind .get fun _ =>
      .ite ih (.pure _)

theorem refillEc_asks (missing : Nat) :
    Preserves (World.Asks (S := S) now allowed) (refillEc c missing) := by
  induction missing with
  | zero => exact .pure _
  | succ missing ih =>
    refine .bind (.within _ generateX25519_asks) fun _ => ?_
    refine .bind (generateUniqueOneTimePrekeyId_asks 32) fun _ => ?_
    exact .bind (modifyClient_asks fun _ => rfl) fun _ => ih

theorem refillPq_asks (missing : Nat) :
    Preserves (World.Asks (S := S) now allowed) (refillPq c missing) := by
  induction missing with
  | zero => exact .pure _
  | succ missing ih =>
    refine .bind (.within _ generateMlKem_asks) fun _ => ?_
    refine .bind (generateUniqueOneTimePrekeyId_asks 32) fun _ => ?_
    exact .bind (modifyClient_asks fun _ => rfl) fun _ => ih

theorem refillOneTimePrekeyPools_asks :
    Preserves (World.Asks (S := S) now allowed) (refillOneTimePrekeyPools c) :=
  .bind .get fun _ => .bind (refillEc_asks _) fun _ => refillPq_asks _

theorem publishPrekeys_asks (hnow : allowed now) :
    Preserves (World.Asks now allowed) (publishPrekeys c server) :=
  .bind .get fun _ => .bind (callServer_asks _) fun _ =>
    .bind (modifyClient_asks fun _ => rfl) fun _ => .within _ (saveLocalState_asks hnow)

/-! ### Peers and messages -/

theorem verifyOrRememberPeerIdentity_asks (hnow : allowed now) (peer k₁ k₂ k₃ : B) :
    Preserves (World.Asks (S := S) now allowed)
      (verifyOrRememberPeerIdentity c peer k₁ k₂ k₃) := by
  refine .bind (.ofExcept _ _) fun _ => .bind .get fun w => ?_
  split
  · exact .bind (modifyClient_asks fun _ => rfl) fun _ =>
      .bind (.within _ (saveLocalState_asks hnow)) fun _ => .fail _
  · exact .bind (.require _ _) fun _ => .require _ _

theorem verifyPeerSafetyNumber_asks (hnow : allowed now) (peer number : B) :
    Preserves (World.Asks (S := S) now allowed) (verifyPeerSafetyNumber c peer number) := by
  refine .bind .get fun w => ?_
  split
  · exact .fail _
  · exact .bind (.ofExcept _ _) fun _ => .bind (.require _ _) fun _ =>
      .bind (modifyClient_asks fun _ => rfl) fun _ => .within _ (saveLocalState_asks hnow)

theorem rememberInitialReplayGuards_asks (sessionId transcriptHash : B) :
    Preserves (World.Asks (S := S) now allowed)
      (rememberInitialReplayGuards sessionId transcriptHash) :=
  .bind .get fun _ => .bind (.require _ _) fun _ => .bind (modifyClient_asks fun _ => rfl) fun _ =>
    .ite (.bind (modifyClient_asks fun _ => rfl) fun _ => .fail _)
      (modifyClient_asks fun _ => rfl)

theorem enqueueAndSave_asks (hnow : allowed now) (peer : B) (envelope : Envelope B) :
    Preserves (World.Asks now allowed) (enqueueAndSave server peer envelope) :=
  .bind (callServer_asks _) fun _ => .within _ (saveLocalState_asks hnow)

theorem encryptChainStep_asks (chainKey : B) (counter : UInt64) (nonce plaintext ad : B) :
    Preserves (World.Asks (S := S) now allowed)
      (encryptChainStep c chainKey counter nonce plaintext ad) :=
  .bind (.ofExcept _ _) fun _ =>
    .bind (.bind (.ofExcept _ _) fun _ => .bind (record_asks _) fun _ => .pure _) fun _ => .pure _

theorem sendMessage_asks (hnow : allowed now) (peer plaintext : B) :
    Preserves (World.Asks now allowed) (sendMessage c server peer plaintext) := by
  refine .bind .get fun w => ?_
  split
  · exact .fail _
  · rename_i session _
    have hratchet : Preserves (World.Asks (S := S) now allowed) (sendRatchet c peer session) :=
      .ite (.bind (.within _ generateX25519_asks) fun _ => .bind (.ofExcept _ _) fun _ =>
        .bind (.ofExcept _ _) fun _ => .bind (setSession_asks _ _) fun _ => .pure _) (.pure _)
    have hseal : ∀ userId step, Preserves (World.Asks (S := S) now allowed)
        (sealStep c userId peer step plaintext) := fun userId step =>
      .bind (.ofExcept _ _) fun _ => .bind (.within _ (encryptChainStep_asks _ _ _ _ _)) fun _ =>
        .bind (setSession_asks _ _) fun _ => .pure _
    exact .bind (.bind .get fun _ => .bind hratchet fun _ => hseal _ _) fun _ =>
      enqueueAndSave_asks hnow _ _

theorem initiateSession_asks (hnow : allowed now) (peer plaintext : B) :
    Preserves (World.Asks now allowed) (initiateSession c server peer plaintext) := by
  have hfetch : Preserves (World.Asks now allowed) (fetchPeerBundle c server peer) :=
    .bind (.within _ (callServer_asks _)) fun _ => .bind (record_asks _) fun _ =>
      .bind (.require _ _) fun _ => .bind (.require _ _) fun _ => .bind (.require _ _) fun _ =>
        .bind (.ofExcept _ _) fun _ =>
          .bind (verifyOrRememberPeerIdentity_asks hnow _ _ _ _) fun _ => .pure _
  have hencapsulate : ∀ key, Preserves (World.Asks (S := S) now allowed) (encapsulate c key) :=
    fun _ => .bind draw_asks fun _ => .ofExcept _ _
  have hagree : ∀ bundle, Preserves (World.Asks (S := S) now allowed)
      (agreeAsInitiator c peer bundle) := by
    intro bundle
    refine .bind (.bind draw_asks fun _ => .bind (.ofExcept _ _) fun _ => .pure _) fun _ => ?_
    split
    · refine .bind (.within _ generateX25519_asks) fun _ => .bind .get fun _ => ?_
      refine .bind (.ofExcept _ _) fun _ => .bind (.ofExcept _ _) fun _ => ?_
      refine .bind (.ofExcept _ _) fun _ => .bind (.ofExcept _ _) fun _ => ?_
      refine .bind (.within _ (hencapsulate _)) fun _ =>
        .bind (.within _ (hencapsulate _)) fun _ => ?_
      refine .bind (.ofExcept _ _) fun _ => .bind (.ofExcept _ _) fun _ => ?_
      exact .bind (.ofExcept _ _) fun _ => .bind (.ofExcept _ _) fun _ => .pure _
    · exact .fail _
  refine .bind hfetch fun bundle => .bind (hagree bundle) fun a => ?_
  refine .bind (.bind (.within _ (encryptChainStep_asks _ _ _ _ _)) fun _ =>
    .bind (record_asks _) fun _ => .pure _) fun _ => ?_
  exact .bind (rememberInitialReplayGuards_asks _ _) fun _ => .bind (setSession_asks _ _) fun _ =>
    enqueueAndSave_asks hnow _ _

theorem handleChatMessage_asks (message : ChatMessage B) :
    Preserves (World.Asks (S := S) now allowed) (handleChatMessage c message) := by
  refine .bind (record_asks _) fun _ => .bind .get fun w => .bind (.require _ _) fun _ => ?_
  split
  · exact .fail _
  · exact .bind (.require _ _) fun _ => .zoom fun _ hw => ⟨hw.client, hw.disk⟩

theorem handleInitialMessage_asks (hnow : allowed now) (message : InitialMessage B) :
    Preserves (World.Asks (S := S) now allowed) (handleInitialMessage c message) := by
  refine .bind (record_asks _) fun _ => .bind .get fun w => .bind (.require _ _) fun _ => ?_
  refine .bind (.require _ _) fun _ => .bind (.require _ _) fun _ => ?_
  split
  · refine .bind (.bind .get fun _ => .bind (.require _ _) fun _ => .bind (.require _ _) fun _ =>
      .bind (.ofExcept _ _) fun _ => .bind (.require _ _) fun _ => .bind (.ofExcept _ _) fun _ =>
        .bind (.ofExcept _ _) fun _ => verifyOrRememberPeerIdentity_asks hnow _ _ _ _) fun _ => ?_
    refine .bind (.ofExcept _ _) fun _ => .bind (.ofExcept _ _) fun _ => ?_
    exact .bind (rememberInitialReplayGuards_asks _ _) fun _ =>
      .bind (modifyClient_asks fun _ => rfl) fun _ => .bind (record_asks _) fun _ => .pure _
  · exact .fail _

theorem handleEnvelope_asks (hnow : allowed now) (envelope : Envelope B) :
    Preserves (World.Asks (S := S) now allowed) (handleEnvelope c envelope) := by
  rw [handleEnvelope]
  split
  · exact handleInitialMessage_asks hnow _
  · exact handleChatMessage_asks _
  · exact .fail _

theorem closeInbox_asks (hnow : allowed now) (plaintexts : List B)
    (firstError : Option String) :
    Preserves (World.Asks now allowed) (closeInbox c server plaintexts firstError) := by
  have hpublish : Preserves (World.Asks now allowed)
      (Proc.attempt (publishPrekeys c server)) := .attempt (publishPrekeys_asks hnow)
  have hrepublish : Preserves (World.Asks now allowed) (republishIfDirty c server firstError) := by
    refine .bind .get fun _ => .ite ?_ (.pure _)
    refine .bind (.attempt refillOneTimePrekeyPools_asks) fun refill => ?_
    split
    · exact .pure _
    · refine .bind hpublish fun publish => ?_
      split
      · exact .pure _
      · exact .bind (modifyClient_asks fun _ => rfl) fun _ => .pure _
  refine .bind hrepublish fun _ => ?_
  split
  · exact .fail _
  · refine .bind (.attempt (saveLocalState_asks hnow)) fun save => ?_
    split
    · exact .fail _
    · exact .pure _

/-- An operation other than `ProcessInbox` does not touch what the client asks for. -/
theorem Op.run_asks (hnow : allowed now) {op : Op B} (hop : op ≠ .processInbox) :
    Preserves (World.Asks now allowed) (op.run c server) := by
  cases op with
  | publish => exact .bind (publishPrekeys_asks hnow) fun _ => .pure _
  | verifyPeer => exact .bind (verifyPeerSafetyNumber_asks hnow _ _) fun _ => .pure _
  | initiate => exact .bind (initiateSession_asks hnow _ _) fun _ => .pure _
  | send => exact .bind (sendMessage_asks hnow _ _) fun _ => .pure _
  | processInbox => exact absurd rfl hop
  | handleInitial => exact .bind (handleInitialMessage_asks hnow _) fun _ => .pure _
  | handleChat => exact .bind (handleChatMessage_asks _) fun _ => .pure _
  | refill => exact .bind refillOneTimePrekeyPools_asks fun _ => .pure _

/-- **What a new process asks for is what the state file asks for, or nothing.** -/
theorem create_asks {userId : B} (hblank : allowed (userId, none)) {w : World B S}
    (hdisk : ∀ saved, w.disk = some saved → allowed saved.asks) :
    allowed (create c userId w).2.client.asks ∧
      ∀ saved, (create c userId w).2.disk = some saved → allowed saved.asks := by
  let I : World B S → Prop := fun w =>
    allowed w.client.asks ∧ ∀ saved, w.disk = some saved → allowed saved.asks
  have hkeep : ∀ {α : Type} {x : Proc (World B S) α},
      (∀ now, allowed now → Preserves (World.Asks now allowed) x) → Preserves I x := by
    intro α x hx w hw
    have h := hx _ hw.1 w ⟨rfl, hw.2⟩
    exact ⟨h.client ▸ hw.1, h.disk⟩
  have hrefill : Preserves I (refillOneTimePrekeyPools c) :=
    hkeep fun _ _ => refillOneTimePrekeyPools_asks
  have hsave : Preserves I saveLocalState := hkeep fun _ hnow => saveLocalState_asks hnow
  have hload : Preserves I loadLocalState := by
    intro w hw
    obtain ⟨n, ⟨saved, hsaved, h⟩ | ⟨e, h⟩⟩ := loadLocalState_cases w
    · rw [h]
      exact ⟨hw.2 saved hsaved, hw.2⟩
    · rw [h]
      exact hw
  have hfresh : Preserves I (freshIdentity c) := by
    refine hkeep fun now _ => ?_
    have hpair : Preserves (World.Asks (S := S) now allowed) (generateX25519 c) :=
      generateX25519_asks
    refine .bind draw_asks fun _ => .bind (.ofExcept _ _) fun _ => .bind draw_asks fun _ => ?_
    refine .bind (.ofExcept _ _) fun _ => .bind (.within _ hpair) fun _ => ?_
    have hsign : ∀ signKey mldsaKey id key input what, Preserves (World.Asks (S := S) now allowed)
        (signPrekey c signKey mldsaKey id key input what) := fun _ _ _ _ _ _ =>
      .bind (.ofExcept _ _) fun _ => .bind (.ofExcept _ _) fun _ => .pure _
    refine .bind (.within _ hpair) fun _ => .bind (hsign _ _ _ _ _ _) fun _ => ?_
    refine .bind (.within _ generateMlKem_asks) fun _ => .bind (hsign _ _ _ _ _ _) fun _ => ?_
    exact modifyClient_asks fun _ => rfl
  change I (create c userId w).2
  rw [create, modifyClient, Proc.modify_bind_apply]
  refine Preserves.bind (.attempt hload) (fun loadState => ?_) _ ⟨hblank, hdisk⟩
  split
  · exact .bind (.within _ hrefill) fun _ => .within _ hsave
  · exact .bind (.require _ _) fun _ => .bind hfresh fun _ =>
      .bind (.within _ hrefill) fun _ => .within _ hsave

end Asks

end PqChat
