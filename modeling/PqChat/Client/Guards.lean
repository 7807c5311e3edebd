/-
# The replay guards

`RememberInitialReplayGuards` adds to four containers, one after the other: the set and the deque
of the session ids, and the set and the deque of the transcripts.  It takes the first addition back
when the second one fails, and evicts from the two deques in two loops that know nothing of each
other.

What keeps the four together is that the deques are both the tail of ONE list: the calls that have
succeeded, oldest first (`Client.Recalls`).  Each guard by itself is a set with the order in which
its elements came (`ReplayGuard.Sound`), so the loops drop what is oldest and nothing else.
-/
import PqChat.Client.Run
import PqChat.Wire.Serialization
import Mathlib.Data.List.DropRight

set_option linter.unusedSectionVars false

namespace PqChat

open ByteString

variable {B S : Type} [ByteString B] [DecidableEq B]

/-! ## 1. One guard -/

/-- The set holds what the deque holds, once each, and not too much. -/
structure ReplayGuard.Sound (g : ReplayGuard B) : Prop where
  seen : g.seen = g.order.toFinset
  nodup : g.order.Nodup
  length : g.order.length ≤ kMaxInitialReplayGuards

theorem ReplayGuard.Sound.mem_iff {g : ReplayGuard B} (h : g.Sound) {x : B} :
    x ∈ g.seen ↔ x ∈ g.order := by
  rw [h.seen, List.mem_toFinset]

/-- The eviction loop keeps the newest entries. -/
theorem evictOldest_eq (max : Nat) {order : List B} (h : order.Nodup) :
    evictOldest max order.toFinset order = ⟨(order.rtake max).toFinset, order.rtake max⟩ := by
  induction order with
  | nil => simp [evictOldest]
  | cons oldest rest ih =>
    obtain ⟨hnew, hrest⟩ := List.nodup_cons.mp h
    rw [evictOldest]
    split
    · rename_i hlen
      have herase : (oldest :: rest).toFinset.erase oldest = rest.toFinset := by
        rw [List.toFinset_cons, Finset.erase_insert (fun hm => hnew (List.mem_toFinset.mp hm))]
      have htake : (oldest :: rest).rtake max = rest.rtake max := by
        rw [List.rtake, List.rtake, List.length_cons,
          Nat.succ_sub (Nat.lt_succ_iff.mp hlen), List.drop_succ_cons]
      rw [herase, ih hrest, htake]
    · rename_i hlen
      have htake : (oldest :: rest).rtake max = oldest :: rest := by
        rw [List.rtake, List.length_cons, Nat.sub_eq_zero_of_le (not_lt.mp hlen), List.drop_zero]
      rw [htake]

theorem length_rtake_le {α : Type} (n : Nat) (l : List α) : (l.rtake n).length ≤ n := by
  rw [List.rtake, List.length_drop]
  omega

theorem rtake_sublist {α : Type} (n : Nat) (l : List α) : (l.rtake n).Sublist l :=
  List.drop_sublist _ _

/-- What has been dropped does not come back. -/
theorem rtake_rtake_concat {α : Type} (n : Nat) (l : List α) (x : α) :
    (l.rtake n ++ [x]).rtake n = (l ++ [x]).rtake n := by
  cases n with
  | zero => rw [List.rtake_zero, List.rtake_zero]
  | succ n =>
    have hinner : (l.rtake (n + 1)).rtake n = l.rtake n := by
      rw [List.rtake_eq_reverse_take_reverse, List.rtake_eq_reverse_take_reverse,
        List.rtake_eq_reverse_take_reverse, List.reverse_reverse, List.take_take,
        min_eq_left (Nat.le_succ n)]
    rw [List.rtake_concat_succ, List.rtake_concat_succ, hinner]

theorem map_rtake {α β : Type} (f : α → β) (n : Nat) (l : List α) :
    (l.rtake n).map f = (l.map f).rtake n := by
  rw [List.rtake, List.rtake, List.map_drop, List.length_map]

/-- **A new entry goes to the end, and only the oldest one may have to go for it.** -/
theorem ReplayGuard.Sound.remember {g : ReplayGuard B} (h : g.Sound) {x : B} (hx : x ∉ g.seen) :
    (g.push x).evict.Sound ∧
      (g.push x).evict.order = (g.order ++ [x]).rtake kMaxInitialReplayGuards := by
  have hnodup : (g.order ++ [x]).Nodup := by
    rw [← List.concat_eq_append]
    exact h.nodup.concat fun hm => hx (h.mem_iff.mpr hm)
  have hseen : (g.push x).seen = (g.order ++ [x]).toFinset := by
    rw [ReplayGuard.push, List.toFinset_append, h.seen, Finset.insert_eq, Finset.union_comm]
    rfl
  have hevict : (g.push x).evict = ⟨((g.order ++ [x]).rtake kMaxInitialReplayGuards).toFinset,
      (g.order ++ [x]).rtake kMaxInitialReplayGuards⟩ := by
    rw [ReplayGuard.evict, hseen]
    exact evictOldest_eq _ hnodup
  have horder : (g.push x).evict.order = (g.order ++ [x]).rtake kMaxInitialReplayGuards := by
    rw [hevict]
  refine ⟨⟨?_, ?_, ?_⟩, horder⟩
  · rw [hevict]
  · rw [horder]
    exact hnodup.sublist (rtake_sublist _ _)
  · rw [horder]
    exact length_rtake_le _ _

theorem ReplayGuard.Sound.reload {g : ReplayGuard B} (h : g.Sound) : g.reload.Sound :=
  ⟨rfl, h.nodup, h.length⟩

/-! ## 2. Both guards -/

/-- The clients that sequences of calls of `RememberInitialReplayGuards` lead to, with the calls
that have succeeded, oldest first. -/
inductive Remembered : List (B × B) → World B S → Prop
  | start (w : World B S) (hs : w.client.seenInitialSessions = ⟨∅, []⟩)
    (ht : w.client.seenInitialTranscripts = ⟨∅, []⟩) : Remembered [] w
  | reload {calls : List (B × B)} {w w' : World B S} (h : Remembered calls w)
    (hload : w'.client = w.client.reload) : Remembered calls w'
  | other {calls : List (B × B)} {w w' : World B S} (h : Remembered calls w)
    (hs : w'.client.seenInitialSessions = w.client.seenInitialSessions)
    (ht : w'.client.seenInitialTranscripts = w.client.seenInitialTranscripts) :
    Remembered calls w'
  | ok {calls : List (B × B)} {w w' : World B S} {u : Unit} (sessionId transcriptHash : B)
    (h : Remembered calls w)
    (hcall : rememberInitialReplayGuards sessionId transcriptHash w = (.ok u, w')) :
    Remembered (calls ++ [(sessionId, transcriptHash)]) w'
  | error {calls : List (B × B)} {w w' : World B S} {e : String} (sessionId transcriptHash : B)
    (h : Remembered calls w)
    (hcall : rememberInitialReplayGuards sessionId transcriptHash w = (.error e, w')) :
    Remembered calls w'

/-- `LoadLocalState` of what `SaveLocalState` has written. -/
theorem Remembered.load {calls : List (B × B)} {w w' w'' : World B S} {u : Unit}
    (h : Remembered calls w) (hsaved : w'.disk = some w.client)
    (hload : loadLocalState w' = (.ok u, w'')) : Remembered calls w'' := by
  obtain ⟨n, ⟨saved, hdisk, he⟩ | ⟨e, he⟩⟩ := loadLocalState_cases w'
  · rw [hsaved] at hdisk
    obtain rfl := Option.some.inj hdisk
    rw [hload] at he
    obtain rfl := (Prod.ext_iff.mp he).2
    exact .reload h rfl
  · rw [hload] at he
    cases (Prod.ext_iff.mp he).1

/-- The guards hold the newest of the given calls, and both hold the same ones. -/
structure Client.Recalls (cl : Client B) (calls : List (B × B)) : Prop where
  sessions : cl.seenInitialSessions.Sound
  transcripts : cl.seenInitialTranscripts.Sound
  sessions_order : cl.seenInitialSessions.order =
    (calls.rtake kMaxInitialReplayGuards).map Prod.fst
  transcripts_order : cl.seenInitialTranscripts.order =
    (calls.rtake kMaxInitialReplayGuards).map fun call => hexEncode call.2

namespace Client.Recalls

variable {cl cl' : Client B} {calls : List (B × B)}

theorem congr (h : cl.Recalls calls) (hs : cl'.seenInitialSessions = cl.seenInitialSessions)
    (ht : cl'.seenInitialTranscripts = cl.seenInitialTranscripts) : cl'.Recalls calls :=
  ⟨hs ▸ h.sessions, ht ▸ h.transcripts, hs ▸ h.sessions_order, ht ▸ h.transcripts_order⟩

theorem reload (h : cl.Recalls calls) : cl.reload.Recalls calls :=
  ⟨h.sessions.reload, h.transcripts.reload, h.sessions_order, h.transcripts_order⟩

/-- A call that succeeds is remembered. -/
theorem remember (h : cl.Recalls calls) {sessionId transcriptHash : B}
    (hnew : ¬ cl.hasSeenInitialReplayGuard sessionId transcriptHash) :
    (cl.remember sessionId transcriptHash).Recalls (calls ++ [(sessionId, transcriptHash)]) := by
  obtain ⟨hs, ht⟩ := not_or.mp hnew
  obtain ⟨hsessions, hsorder⟩ := h.sessions.remember hs
  obtain ⟨htranscripts, htorder⟩ := h.transcripts.remember ht
  refine ⟨hsessions, htranscripts, ?_, ?_⟩
  · refine hsorder.trans ?_
    rw [h.sessions_order, map_rtake, rtake_rtake_concat, map_rtake, List.map_append]
    rfl
  · refine htorder.trans ?_
    rw [h.transcripts_order, map_rtake, rtake_rtake_concat, map_rtake, List.map_append]
    rfl

/-- What the guards remember they have seen. -/
theorem hasSeen (h : cl.Recalls calls) {sessionId transcriptHash : B}
    (hcall : (sessionId, transcriptHash) ∈ calls.rtake kMaxInitialReplayGuards) :
    (∀ other, cl.hasSeenInitialReplayGuard sessionId other) ∧
      ∀ other, cl.hasSeenInitialReplayGuard other transcriptHash := by
  refine ⟨fun other => Or.inl ?_, fun other => Or.inr ?_⟩
  · rw [h.sessions.mem_iff, h.sessions_order]
    exact List.mem_map_of_mem (f := Prod.fst) hcall
  · rw [h.transcripts.mem_iff, h.transcripts_order]
    exact List.mem_map_of_mem (f := fun call : B × B => hexEncode call.2) hcall

end Client.Recalls

theorem Remembered.recalls {calls : List (B × B)} {w : World B S} (h : Remembered calls w) :
    w.client.Recalls calls := by
  induction h with
  | start w hs ht =>
    have hnil : (⟨∅, []⟩ : ReplayGuard B).Sound := ⟨rfl, List.nodup_nil, Nat.zero_le _⟩
    exact ⟨hs ▸ hnil, ht ▸ hnil, by rw [hs, List.rtake_nil]; rfl,
      by rw [ht, List.rtake_nil]; rfl⟩
  | reload _ hload ih => exact hload ▸ ih.reload
  | other _ hs ht ih => exact ih.congr hs ht
  | @ok calls w w' u sessionId transcriptHash _ hcall ih =>
    rcases rememberInitialReplayGuards_cases sessionId transcriptHash w with
      ⟨hnew, he⟩ | ⟨-, e, he⟩
    · rw [hcall] at he
      obtain rfl := (Prod.ext_iff.mp he).2
      exact ih.remember hnew
    · rw [hcall] at he
      cases (Prod.ext_iff.mp he).1
  | @error calls w w' e sessionId transcriptHash _ hcall ih =>
    rcases rememberInitialReplayGuards_cases sessionId transcriptHash w with
      ⟨-, he⟩ | ⟨-, e', he⟩
    · rw [hcall] at he
      cases (Prod.ext_iff.mp he).1
    · rw [hcall] at he
      obtain rfl := (Prod.ext_iff.mp he).2
      exact ih

/-- **The replay guards**, after any sequence of calls: both are sound, their deques are the ids
and the transcripts of the newest calls that have succeeded, these are recognised, and a call that
fails changes nothing. -/
theorem replay_guards {calls : List (B × B)} {w : World B S} (h : Remembered calls w) :
    (w.client.seenInitialSessions.Sound ∧ w.client.seenInitialTranscripts.Sound) ∧
    (w.client.seenInitialSessions.order =
        (calls.rtake kMaxInitialReplayGuards).map Prod.fst ∧
      w.client.seenInitialTranscripts.order =
        (calls.rtake kMaxInitialReplayGuards).map (fun call => hexEncode call.2) ∧
      w.client.seenInitialSessions.order.length =
        w.client.seenInitialTranscripts.order.length) ∧
    (∀ call ∈ calls.rtake kMaxInitialReplayGuards,
      (∀ other, w.client.hasSeenInitialReplayGuard call.1 other) ∧
        ∀ other, w.client.hasSeenInitialReplayGuard other call.2) ∧
    ∀ sessionId transcriptHash e w',
      rememberInitialReplayGuards sessionId transcriptHash w = (.error e, w') → w' = w := by
  have hr := h.recalls
  refine ⟨⟨hr.sessions, hr.transcripts⟩,
    ⟨hr.sessions_order, hr.transcripts_order, ?_⟩, fun _ hcall => hr.hasSeen hcall, ?_⟩
  · rw [hr.sessions_order, hr.transcripts_order, List.length_map, List.length_map]
  · intro sessionId transcriptHash e w' hcall
    rcases rememberInitialReplayGuards_cases sessionId transcriptHash w with
      ⟨-, he⟩ | ⟨-, e', he⟩
    · rw [hcall] at he
      cases (Prod.ext_iff.mp he).1
    · rw [hcall] at he
      exact (Prod.ext_iff.mp he).2

/-- A client that has seen no handshake. -/
def unvisited : World Bytes Unit where
  client := Client.blank []
  server := ()
  disk := none
  entropy n := n
  drawn := 0
  diskOutcome _ := .ok
  diskUses := 0
  trace := []

/-- A handshake is remembered, and the same one is refused from then on. -/
theorem replay_guards_once : ∃ w : World Bytes Unit,
    Remembered [(([1] : Bytes), ([2] : Bytes))] w ∧
    w.client.seenInitialSessions.order = [[1]] ∧
    (∀ other, w.client.hasSeenInitialReplayGuard [1] other) ∧
    ∀ other, w.client.hasSeenInitialReplayGuard other [2] := by
  have hstart : Remembered [] unvisited := .start unvisited rfl rfl
  have hcall : rememberInitialReplayGuards [1] [2] unvisited =
      (.ok (), { unvisited with client := unvisited.client.remember [1] [2] }) :=
    (rememberInitialReplayGuards_cases _ _ _).elim And.right fun h => absurd h.1 (by decide)
  have h := Remembered.ok _ _ hstart hcall
  rw [List.nil_append] at h
  have hrecent : [(([1] : Bytes), ([2] : Bytes))].rtake kMaxInitialReplayGuards =
      [([1], [2])] := by decide
  obtain ⟨-, ⟨horder, -⟩, hseen, -⟩ := replay_guards h
  rw [hrecent] at horder hseen
  obtain ⟨hsession, htranscript⟩ := hseen _ (List.mem_singleton_self _)
  exact ⟨_, h, horder, hsession, htranscript⟩

end PqChat
