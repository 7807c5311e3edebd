/-
# Calls over a connection

A client and a server at the two ends of a connection.  The client is `TcpServerApi`, in whatever
state its calls have left it; the server handles the frames of all its connections in any order.
The two share nothing but bytes: those that the server has read are the first that the client has
written, and those that the client has read are the first that the server has written (`Linked`).

The server handles the frames of one connection one after the other, and the client gives a
connection up that it has not read an answer from.  So on a connection that is kept the two agree on
what has been asked and answered (`exchanged_once`): nothing is lost, nothing is handled twice, and
no answer is taken for that to another request.  What a call returns is then what the server object
has answered to that call (`queries_served`, `updates_served`).
-/
import PqChat.Lib.Serving
import PqChat.Client.Connection
import PqChat.Wire.Sizes

namespace PqChat

open ByteString TcpServer TcpWire TextResult

/-! ## 1. Frames -/

theorem TcpWire.encoding_ne_nil (frame : Frame) : encoding frame ≠ [] := by
  intro h
  have hlen := length_encoding frame
  rw [h, List.length_nil] at hlen
  omega

/-- What frames look like determines them. -/
theorem TcpWire.prefix_of_encodings {xs ys : List Frame} (hxs : ∀ x ∈ xs, Fits x)
    (hys : ∀ y ∈ ys, Fits y) (h : xs.flatMap encoding <+: ys.flatMap encoding) : xs <+: ys := by
  induction xs generalizing ys with
  | nil => exact List.nil_prefix
  | cons x xs ih =>
    cases ys with
    | nil =>
      have hnil := List.prefix_nil.mp h
      rw [List.flatMap_cons, List.append_eq_nil_iff] at hnil
      exact absurd hnil.1 (encoding_ne_nil x)
    | cons y ys =>
      obtain ⟨hx, hrestx⟩ := List.forall_mem_cons.mp hxs
      obtain ⟨hy, hresty⟩ := List.forall_mem_cons.mp hys
      obtain ⟨rest, hrest⟩ := h
      rw [List.flatMap_cons, List.flatMap_cons, List.append_assoc] at hrest
      -- the first frame can be read in two ways
      have hread := congrArg (takeFrame socketTexts none) hrest
      rw [takeFrame_encoding hx, takeFrame_encoding hy] at hread
      obtain ⟨hframe, hframes⟩ := Prod.mk.inj hread
      obtain rfl := Except.ok.inj hframe
      exact (List.prefix_cons_inj x).mpr (ih hrestx hresty ⟨rest, hframes⟩)

namespace TcpServer

/-- The frame with the result of `HandleConnection`; `send_error` makes that of an error. -/
def reply : Result Bytes → Frame
  | .ok payload => ⟨TcpStatus.kOk, payload⟩
  | .error error => ⟨TcpStatus.kError, (serializeString (text error)).toOption.getD []⟩

/-- `WriteFrame` refuses a frame that is too large, and the server goes on. -/
def sends (r : Result Bytes) : Option Frame := if Fits (reply r) then some (reply r) else none

theorem sends_eq_some_iff {r : Result Bytes} {frame : Frame} :
    sends r = some frame ↔ Fits (reply r) ∧ reply r = frame := by
  unfold sends
  split
  · rename_i h
    simp [h]
  · rename_i h
    simp [h]

theorem fits_of_sends {r : Result Bytes} {frame : Frame} (h : sends r = some frame) :
    Fits frame := by
  obtain ⟨hfits, rfl⟩ := sends_eq_some_iff.mp h
  exact hfits

/-- The client reads the result of the server, unless the text of an error is empty. -/
theorem isOk_resultOf_reply {r : Result Bytes} (h : (TcpServerApi.resultOf (reply r)).isOk) :
    (∃ payload, r = .ok payload ∧ TcpServerApi.resultOf (reply r) = .ok payload) ∨
      r = .error "" := by
  cases r with
  | ok payload => exact Or.inl ⟨payload, rfl, rfl⟩
  | error error =>
    refine Or.inr (congrArg Except.error ?_)
    have hrefused : TcpStatus.kError ≠ TcpStatus.kOk := by decide
    have hpayload := (TcpServerApi.isOk_resultOf_iff hrefused).mp h
    change Writer.string [] (text error) = [0, 0, 0, 0] at hpayload
    rw [writer_string, List.nil_append] at hpayload
    have hlen := congrArg List.length hpayload
    rw [length_putBytes] at hlen
    refine TcpServerApi.eq_empty_of_text (List.eq_nil_of_length_eq_zero ?_)
    simpa using hlen

end TcpServer

/-! ## 2. A connection -/

namespace TcpServerApi

/-- The ends of the connection that the client keeps: `requests` have been read from what it has
written, and what it has read has been written for `answers`. -/
structure Linked (api : TcpServerApi) (requests answers : List Frame) : Prop where
  ends : ∃ endpoint k₀ k written read,
    api.attempts (api.attempted - 1) = .ok endpoint ∧
    onSocket api.tlsEnabled endpoint = some k₀ ∧ onSocket api.tlsEnabled api.endpoint = some k ∧
    k.sent = k₀.sent ++ written ∧ requests.flatMap encoding <+: written ∧
    arrived k₀.incoming = read ++ arrived k.incoming ∧ read <+: answers.flatMap encoding
  /-- `ReadFrame` accepts no others. -/
  fits : ∀ request ∈ requests, Fits request

/-- What has come to the server is among the first that has been asked, and what has been answered
among the first that the server has sent. -/
theorem Talks.linked {api : TcpServerApi} {k₀ k : Socket} {log : List (Frame × Frame)}
    (ht : Talks api k₀ k log) {requests answers : List Frame} (h : Linked api requests answers)
    (hanswers : ∀ answer ∈ answers, Fits answer) :
    requests <+: log.map Prod.fst ∧ log.map Prod.snd <+: answers := by
  obtain ⟨endpoint, k₀', k', written, read, hattempt, hk₀, hk, hsent, hrequests, hread, htold⟩ :=
    h.ends
  obtain ⟨endpoint', hattempt', hk₀'⟩ := ht.opened
  obtain rfl : endpoint' = endpoint := Except.ok.inj (hattempt'.symm.trans hattempt)
  obtain rfl : k₀' = k₀ := Option.some.inj (hk₀.symm.trans hk₀')
  obtain rfl : k' = k := Option.some.inj (hk.symm.trans ht.current)
  obtain ⟨hfits, hexchanged, hreceived⟩ := ht.exchanged
  obtain rfl := List.append_cancel_left (hsent.symm.trans hexchanged)
  obtain rfl := List.append_cancel_right (hread.symm.trans hreceived)
  constructor
  · refine prefix_of_encodings h.fits (fun request hrequest => ?_) hrequests
    obtain ⟨x, hx, rfl⟩ := List.mem_map.mp hrequest
    exact (hfits x hx).1
  · refine prefix_of_encodings (fun answer hanswer => ?_) hanswers htold
    obtain ⟨x, hx, rfl⟩ := List.mem_map.mp hanswer
    exact (hfits x hx).2

/-- A client after any calls, whatever they have returned. -/
def Runs (s s' : Hosted TcpServerApi) : Prop :=
  Relation.ReflTransGen (fun s s' => ∃ c : Call, s' = (c.run s).2) s s'

theorem Runs.regular {s s' : Hosted TcpServerApi} (h : Runs s s') (hs : Regular s) :
    Regular s' := by
  induction h with
  | refl => exact hs
  | tail _ hstep ih =>
    obtain ⟨c, rfl⟩ := hstep
    exact regular_run c _ ih

theorem regular_of_not_connected {s : Hosted TcpServerApi} (h : s.object.connected = false) :
    Regular s := by
  intro hconnected
  rw [h] at hconnected
  cases hconnected

end TcpServerApi

/-! ## 3. Each request is handled once -/

namespace TcpServer

variable {σ : Type} (api : IServerApi (Hosted σ)) (peerAddr : Connection → Bytes)
  (t₀ : TcpServer σ) (i : Connection)

/-- The frames that have been read from a connection. -/
def requests (actions : List Action) : List Frame :=
  (Pool.taken (fun i => handleFrame (peerAddr i)) (exec api) t₀ i actions).reverse

/-- What has been handled of a connection. -/
def handled (actions : List Action) : List (Pool.Done Frame Call Call.Answer Bytes) :=
  (Pool.done (fun i => handleFrame (peerAddr i)) (exec api) t₀ i actions).reverse

/-- The frames that have been written to a connection. -/
def answers (actions : List Action) : List Frame :=
  (handled api peerAddr t₀ i actions).filterMap fun d => sends d.result

variable {api peerAddr t₀ i}

theorem fits_answers {actions : List Action} :
    ∀ answer ∈ answers api peerAddr t₀ i actions, Fits answer := by
  intro answer hanswer
  obtain ⟨d, -, hd⟩ := List.mem_filterMap.mp hanswer
  exact fits_of_sends hd

theorem log_eq_handled {actions : List Action} {client : TcpServerApi} {k₀ k : Socket}
    {log : List (Frame × Frame)} (ht : TcpServerApi.Talks client k₀ k log)
    (h : client.Linked (requests api peerAddr t₀ i actions)
      (answers api peerAddr t₀ i actions)) :
    log.map (fun x => (x.1, some x.2)) =
      (handled api peerAddr t₀ i actions).map fun d => (d.job, sends d.result) := by
  obtain ⟨hrequests, hanswers⟩ := ht.linked h fits_answers
  exact Pool.log_eq_done hrequests hanswers

/-- **Each request is handled once, and each answer is to its request.**  The client may have made
any calls and lost any connections before. -/
theorem exchanged_once {actions : List Action} {s₀ s : Hosted TcpServerApi}
    (h₀ : s₀.object.connected = false) (hruns : TcpServerApi.Runs s₀ s)
    (hconnected : s.object.connected = true)
    (h : s.object.Linked (requests api peerAddr t₀ i actions)
      (answers api peerAddr t₀ i actions)) :
    ∃ k₀ k log, TcpServerApi.Talks s.object k₀ k log ∧
      log.map (fun x => (x.1, some x.2)) =
        (handled api peerAddr t₀ i actions).map fun d => (d.job, sends d.result) := by
  have hregular := hruns.regular (TcpServerApi.regular_of_not_connected h₀)
  rcases hregular hconnected with hnone | ⟨k₀, k, log, htalks⟩
  · obtain ⟨_, _, k, _, _, _, _, hk, _⟩ := h.ends
    rw [hnone] at hk
    cases hk
  · exact ⟨k₀, k, log, htalks, log_eq_handled htalks h⟩

/-! ## 4. Calls of the server object -/

variable (api peerAddr t₀ i) in
/-- The last frame of a connection that has been handled has made the call, and this is what the
server object has answered at that time. -/
def Served (actions : List Action) (call : Call) (value : call.Answer) : Prop :=
  ∃ d t earlier, (handled api peerAddr t₀ i actions).getLast? = some d ∧ t.job = d.job ∧
    .run i :: earlier <:+ actions ∧ (after api peerAddr t₀ earlier).Calls i t call ∧
    (exec api call (after api peerAddr t₀ earlier).shared).1 = .ok value

/-- What the program ends with holds of the last that has been handled. -/
theorem handled_ended {Q : Frame → Made → Result Bytes → Prop}
    (hbody : ∀ peerAddr frame, (handleFrame peerAddr frame).Ends (Q frame) [])
    {actions : List Action} {d : Pool.Done Frame Call Call.Answer Bytes}
    (hd : (handled api peerAddr t₀ i actions).getLast? = some d) : Q d.job d.made d.result :=
  Pool.done_ended (fun i frame => hbody (peerAddr i) frame)
    (List.mem_reverse.mp (List.mem_of_getLast? hd))

theorem served_of_made {actions : List Action}
    {d : Pool.Done Frame Call Call.Answer Bytes}
    (hd : (handled api peerAddr t₀ i actions).getLast? = some d) {call : Call}
    {value : call.Answer} (hm : ⟨call, .ok value⟩ ∈ d.made) :
    Served api peerAddr t₀ i actions call value := by
  have hmem := List.mem_reverse.mp (List.mem_of_getLast? hd)
  obtain ⟨earlier, t, hearlier, hjob, hcalls, hanswer⟩ := Pool.done_called hmem hm
  exact ⟨d, t, earlier, hd, hjob, hearlier, hcalls, hanswer.symm⟩

/-- What is taken to be stored has come in the frame, and has been accepted. -/
structure Accepts (frame : Frame) (made : Made) : Prop where
  publish : frame.command = TcpCommand.kPublishBundle → ∃ bundle,
    Behind frame made (fun payload => deserializePrekeyBundle payload = .ok bundle) ∧
    ⟨.publishBundle bundle, .ok ()⟩ ∈ made
  enqueue : frame.command = TcpCommand.kEnqueueEnvelope → ∃ userId envelope,
    Behind frame made (fun payload => deserializeEnqueueRequest payload = .ok ⟨userId, envelope⟩) ∧
    ⟨.enqueueEnvelope userId envelope, .ok ()⟩ ∈ made

theorem handleFrame_accepts (peerAddr : Bytes) (frame : Frame) :
    (handleFrame peerAddr frame).Ends
      (fun made r => ∀ response, r = .ok response → Accepts frame made) [] := by
  have hfail : ∀ {made : Made} (e : String), ∀ response, (.error e : Result Bytes) = .ok response →
      Accepts frame made := by
    intro made e response h
    cases h
  -- the answer to another command
  have hother : ∀ {made : Made} {r : Result Bytes} {command : UInt32}, frame.command = command →
      command ≠ TcpCommand.kPublishBundle → command ≠ TcpCommand.kEnqueueEnvelope →
      ∀ response, r = .ok response → Accepts frame made := by
    intro made r command hcommand hpublish henqueue response _
    constructor
    · exact fun h => absurd (hcommand.symm.trans h) hpublish
    · exact fun h => absurd (hcommand.symm.trans h) henqueue
  refine Thread.ends_perform_bind (fun e => hfail e) fun _ => ?_
  split
  · rename_i hcommand
    refine Thread.ends_ofExcept_bind (fun e => hfail e) fun request _ => ?_
    refine Thread.ends_perform_bind (fun e => hfail e) fun _ => ?_
    refine Thread.ends_perform_bind (fun e => hfail e) fun _ => ?_
    exact Thread.ends_pure (hother hcommand (by decide) (by decide))
  split
  · rename_i hcommand
    refine Thread.ends_ofExcept_bind (fun e => hfail e) fun request _ => ?_
    refine Thread.ends_perform_bind (fun e => hfail e) fun _ => ?_
    refine Thread.ends_perform_bind (fun e => hfail e) fun _ => ?_
    exact Thread.ends_ofExcept (hother hcommand (by decide) (by decide))
  split
  · rename_i hcommand
    refine Thread.ends_ofExcept_bind (fun e => hfail e) fun request _ => ?_
    refine Thread.ends_perform_bind (fun e => hfail e) fun _ => ?_
    refine Thread.ends_perform_bind (fun e => hfail e) fun _ => ?_
    exact Thread.ends_ofExcept (hother hcommand (by decide) (by decide))
  refine Thread.ends_ofExcept_bind (fun e => hfail e) fun authenticated hauthenticated => ?_
  refine Thread.ends_perform_bind (fun e => hfail e) fun (sessionUser : Bytes) => ?_
  split
  · rename_i hcommand
    refine Thread.ends_perform_bind (fun e => hfail e) fun _ => ?_
    exact Thread.ends_pure (hother hcommand (by decide) (by decide))
  split
  · rename_i hcommand
    refine Thread.ends_ofExcept_bind (fun e => hfail e) fun bundle hbundle => ?_
    refine Thread.ends_require_bind (hfail _) fun _ => ?_
    refine Thread.ends_perform_bind (fun e => hfail e) fun _ => ?_
    refine Thread.ends_pure fun _ _ => ⟨fun _ => ?_, fun h => ?_⟩
    · refine ⟨bundle, ⟨authenticated, sessionUser, hauthenticated, ?_, hbundle⟩,
        List.mem_cons_self⟩
      exact List.mem_cons_of_mem _ List.mem_cons_self
    · exact absurd (hcommand.symm.trans h) (by decide)
  split
  · rename_i hcommand
    refine Thread.ends_ofExcept_bind (fun e => hfail e) fun user _ => ?_
    refine Thread.ends_perform_bind (fun e => hfail e) fun _ => ?_
    exact Thread.ends_ofExcept (hother hcommand (by decide) (by decide))
  split
  · rename_i hcommand
    refine Thread.ends_ofExcept_bind (fun e => hfail e) fun request hrequest => ?_
    refine Thread.ends_ofExcept_bind (fun e => hfail e) fun names _ => ?_
    refine Thread.ends_require_bind (hfail _) fun _ => ?_
    refine Thread.ends_require_bind (hfail _) fun _ => ?_
    refine Thread.ends_perform_bind (fun e => hfail e) fun _ => ?_
    refine Thread.ends_pure fun _ _ => ⟨fun h => ?_, fun _ => ?_⟩
    · exact absurd (hcommand.symm.trans h) (by decide)
    · refine ⟨request.userId, request.envelope,
        ⟨authenticated, sessionUser, hauthenticated, ?_, hrequest⟩, List.mem_cons_self⟩
      exact List.mem_cons_of_mem _ List.mem_cons_self
  split
  · rename_i hcommand
    refine Thread.ends_ofExcept_bind (fun e => hfail e) fun request _ => ?_
    refine Thread.ends_require_bind (hfail _) fun _ => ?_
    refine Thread.ends_perform_bind (fun e => hfail e) fun _ => ?_
    exact Thread.ends_ofExcept (hother hcommand (by decide) (by decide))
  · exact Thread.ends_ofExcept (hfail _)

/-- The server reads behind the token what the client has written there. -/
theorem Behind.of_written {token bytes encoded : Bytes} {command : UInt32} {made : Made}
    {p : Bytes → Prop} (h : Behind ⟨command, encoded⟩ made p)
    (hwritten : serializeAuthenticatedPayload ⟨token, bytes⟩ = .ok encoded) : p bytes := by
  obtain ⟨authenticated, _, hread, -, hp⟩ := h
  have heq := WireType.eq_of_accepted (t := .authenticatedPayload) trivial hwritten hread
  rwa [← heq] at hp

/-- A call that succeeds is the last that has been handled. -/
theorem call_handled {α : Type} {actions : List Action} {command : UInt32} {payload : Result Bytes}
    {finish : CResult Bytes → TcpServerApi.Api (CResult α)} {s s' : Hosted TcpServerApi}
    {r : CResult α} (hs : TcpServerApi.Regular s)
    (hcall : TcpServerApi.call command (CResult.of payload) finish s = (.ok r, s')) (hr : r.isOk)
    (hfinish : ∀ response s₁ r s₂, finish response s₁ = (.ok r, s₂) → s₂ = s₁)
    (h : s'.object.Linked (requests api peerAddr t₀ i actions)
      (answers api peerAddr t₀ i actions)) :
    ∃ bytes token encoded d, payload = .ok bytes ∧
      serializeAuthenticatedPayload ⟨token, bytes⟩ = .ok encoded ∧
      (handled api peerAddr t₀ i actions).getLast? = some d ∧ d.job = ⟨command, encoded⟩ ∧
      (TcpServerApi.resultOf (reply d.result)).isOk ∧
      finish (TcpServerApi.resultOf (reply d.result)) s' = (.ok r, s') := by
  obtain ⟨bytes, token, encoded, response, s₁, hbytes, hencoded, hasked, hok, hend⟩ :=
    TcpServerApi.call_asked hs hcall hr
  obtain rfl := hfinish _ _ _ _ hend
  obtain ⟨k₀, k, log, answer, htalks, rfl⟩ := hasked
  have hlog := congrArg List.getLast? (log_eq_handled htalks h)
  rw [List.map_append, List.map_singleton, List.getLast?_append_of_ne_nil _ (List.cons_ne_nil _ _),
    List.getLast?_singleton, List.getLast?_map] at hlog
  obtain ⟨d, hd, hlast⟩ := Option.map_eq_some_iff.mp hlog.symm
  obtain ⟨hjob, hanswer⟩ := Prod.mk.inj hlast
  obtain ⟨-, rfl⟩ := sends_eq_some_iff.mp hanswer
  exact ⟨bytes, token, encoded, d, hbytes, hencoded, hd, hjob, hok, hend⟩

/-- What the client returns is made from the payload of a response. -/
theorem decoded {α : Type} {deserialize : Bytes → Result α}
    (hspeaks : ∀ bytes e, deserialize bytes = .error e → e ≠ "") {result : Result Bytes}
    {s s' : Hosted TcpServerApi} {r : CResult α}
    (hok : (TcpServerApi.resultOf (reply result)).isOk)
    (h : TcpServerApi.decode deserialize (TcpServerApi.resultOf (reply result)) s = (.ok r, s'))
    (hr : r.isOk) :
    ∃ response value, result = .ok response ∧ deserialize response = .ok value ∧ r = .ok value := by
  obtain ⟨response, s₁, hget, hrest⟩ := Proc.bind_eq_ok_iff.mp h
  obtain ⟨hvalue, -⟩ := TcpServerApi.get_ok hget
  obtain ⟨hresult, -⟩ := Prod.mk.inj hrest
  obtain rfl := Except.ok.inj hresult
  rcases isOk_resultOf_reply hok with ⟨payload, rfl, hpayload⟩ | rfl
  · rw [hpayload] at hvalue
    obtain rfl : payload = response := Option.some.inj hvalue
    cases hread : deserialize payload with
    | ok value => exact ⟨payload, value, rfl, hread, rfl⟩
    | error e =>
      rw [hread] at hr
      exact absurd (TcpServerApi.eq_empty_of_text (isOk_err_iff.mp hr)) (hspeaks payload e hread)
  · cases hvalue

theorem decode_state {α : Type} {deserialize : Bytes → Result α} {response : CResult Bytes}
    {s s' : Hosted TcpServerApi} {r : CResult α}
    (h : TcpServerApi.decode deserialize response s = (.ok r, s')) : s' = s := by
  obtain ⟨_, s₁, hget, hrest⟩ := Proc.bind_eq_ok_iff.mp h
  obtain ⟨-, rfl⟩ := TcpServerApi.get_ok hget
  exact (Prod.mk.inj hrest).2.symm

section Calls

variable {actions : List Action} {s s' : Hosted TcpServerApi} {command : UInt32}
  {payload : Result Bytes}

/-- A call that returns nothing counts as a success if the server has accepted it, or has refused it
with an empty text. -/
theorem update_handled {r : CResult Unit} (hs : TcpServerApi.Regular s)
    (hcall : TcpServerApi.call command (CResult.of payload) (fun _ => pure (.ok ())) s =
      (.ok r, s')) (hr : r.isOk)
    (h : s'.object.Linked (requests api peerAddr t₀ i actions)
      (answers api peerAddr t₀ i actions)) :
    ∃ bytes token encoded d, payload = .ok bytes ∧
      serializeAuthenticatedPayload ⟨token, bytes⟩ = .ok encoded ∧
      (handled api peerAddr t₀ i actions).getLast? = some d ∧
      (Accepts ⟨command, encoded⟩ d.made ∨ d.result = .error "") := by
  obtain ⟨bytes, token, encoded, d, hbytes, hencoded, hd, hjob, hok, -⟩ :=
    call_handled hs hcall hr (fun _ _ _ _ h => (Prod.mk.inj h).2.symm) h
  refine ⟨bytes, token, encoded, d, hbytes, hencoded, hd, ?_⟩
  rcases isOk_resultOf_reply hok with ⟨response, hresult, -⟩ | hmute
  · have haccepts := handled_ended handleFrame_accepts hd response hresult
    rw [hjob] at haccepts
    exact Or.inl haccepts
  · exact Or.inr hmute

/-- A call that returns a value has been answered with its encoding. -/
theorem query_handled {α : Type} {deserialize : Bytes → Result α}
    (hspeaks : ∀ bytes e, deserialize bytes = .error e → e ≠ "") {r : CResult α}
    (hs : TcpServerApi.Regular s)
    (hcall : TcpServerApi.call command (CResult.of payload) (TcpServerApi.decode deserialize) s =
      (.ok r, s')) (hr : r.isOk)
    (h : s'.object.Linked (requests api peerAddr t₀ i actions)
      (answers api peerAddr t₀ i actions)) :
    ∃ bytes token encoded d response value, payload = .ok bytes ∧
      serializeAuthenticatedPayload ⟨token, bytes⟩ = .ok encoded ∧
      (handled api peerAddr t₀ i actions).getLast? = some d ∧
      Responds ⟨command, encoded⟩ d.made response ∧ deserialize response = .ok value ∧
      r = .ok value := by
  obtain ⟨bytes, token, encoded, d, hbytes, hencoded, hd, hjob, hok, hend⟩ :=
    call_handled hs hcall hr (fun _ _ _ _ => decode_state) h
  obtain ⟨response, value, hresult, hvalue, hr⟩ := decoded hspeaks hok hend hr
  have hresponds := handled_ended handleFrame_responds hd response hresult
  rw [hjob] at hresponds
  exact ⟨bytes, token, encoded, d, response, value, hbytes, hencoded, hd, hresponds, hvalue, hr⟩

theorem publish_served {r : CResult Unit} (hs : TcpServerApi.Regular s)
    {bundle : PrekeyBundle Bytes} (hcall : TcpServerApi.publishBundle bundle s = (.ok r, s'))
    (hr : r.isOk)
    (h : s'.object.Linked (requests api peerAddr t₀ i actions)
      (answers api peerAddr t₀ i actions)) :
    Served api peerAddr t₀ i actions (.publishBundle bundle) () ∨
      ∃ d, (handled api peerAddr t₀ i actions).getLast? = some d ∧ d.result = .error "" := by
  rw [TcpServerApi.publishBundle_eq] at hcall
  obtain ⟨bytes, token, encoded, d, hbytes, hencoded, hd, haccepts | hmute⟩ :=
    update_handled hs hcall hr h
  · obtain ⟨bundle', hbehind, hmade⟩ := haccepts.publish rfl
    obtain rfl : bundle = bundle' := WireType.eq_of_accepted (t := .prekeyBundle) trivial hbytes
      (hbehind.of_written hencoded)
    exact Or.inl (served_of_made hd hmade)
  · exact Or.inr ⟨d, hd, hmute⟩

theorem enqueue_served {r : CResult Unit} (hs : TcpServerApi.Regular s) {userId : Bytes}
    {envelope : Envelope Bytes} (henvelope : envelope.WellFormed)
    (hcall : TcpServerApi.enqueueEnvelope userId envelope s = (.ok r, s')) (hr : r.isOk)
    (h : s'.object.Linked (requests api peerAddr t₀ i actions)
      (answers api peerAddr t₀ i actions)) :
    Served api peerAddr t₀ i actions (.enqueueEnvelope userId envelope) () ∨
      ∃ d, (handled api peerAddr t₀ i actions).getLast? = some d ∧ d.result = .error "" := by
  rw [TcpServerApi.enqueueEnvelope_eq] at hcall
  obtain ⟨bytes, token, encoded, d, hbytes, hencoded, hd, haccepts | hmute⟩ :=
    update_handled hs hcall hr h
  · obtain ⟨userId', envelope', hbehind, hmade⟩ := haccepts.enqueue rfl
    have heq := WireType.eq_of_accepted (t := .enqueueRequest)
      (x := (⟨userId, envelope⟩ : EnqueueRequest Bytes)) henvelope hbytes
      (hbehind.of_written hencoded)
    obtain ⟨rfl, rfl⟩ := EnqueueRequest.mk.inj heq
    exact Or.inl (served_of_made hd hmade)
  · exact Or.inr ⟨d, hd, hmute⟩

theorem acquire_served {r : CResult (PrekeyBundle Bytes)} (hs : TcpServerApi.Regular s)
    {userId : Bytes} (hcall : TcpServerApi.acquireBundleForSession userId s = (.ok r, s'))
    (hr : r.isOk)
    (h : s'.object.Linked (requests api peerAddr t₀ i actions)
      (answers api peerAddr t₀ i actions)) :
    ∃ bundle, r = .ok bundle ∧
      Served api peerAddr t₀ i actions (.acquireBundleForSession userId) bundle := by
  rw [TcpServerApi.acquireBundleForSession_eq] at hcall
  obtain ⟨bytes, token, encoded, d, response, bundle, hbytes, hencoded, hd, hresponds, hread,
    rfl⟩ := query_handled (fun _ _ => TcpServerApi.speaks_deserializeWith) hs hcall hr h
  obtain ⟨userId', bundle', hbehind, hmade, hwritten⟩ := hresponds.acquire rfl
  obtain rfl : userId = userId' := WireType.eq_of_accepted (t := .string) trivial hbytes
    (hbehind.of_written hencoded)
  obtain rfl : bundle' = bundle := WireType.eq_of_accepted (t := .prekeyBundle) trivial hwritten
    hread
  exact ⟨bundle', rfl, served_of_made hd hmade⟩

/-- The encoding of a page determines it if the envelopes are as they are built. -/
theorem drain_served {r : CResult (List (InboxEnvelope Bytes))} (hs : TcpServerApi.Regular s)
    {userId : Bytes} {ack : Option UInt64}
    (hcall : TcpServerApi.drainInbox userId ack s = (.ok r, s')) (hr : r.isOk)
    (h : s'.object.Linked (requests api peerAddr t₀ i actions)
      (answers api peerAddr t₀ i actions)) :
    ∃ page page' response, r = .ok page ∧ deserializeInboxEnvelopeVector response = .ok page ∧
      serializeInboxEnvelopeVector page' = .ok response ∧
      Served api peerAddr t₀ i actions (.drainInbox userId ack) page' := by
  rw [TcpServerApi.drainInbox_eq] at hcall
  obtain ⟨bytes, token, encoded, d, response, page, hbytes, hencoded, hd, hresponds, hread, rfl⟩ :=
    query_handled TcpServerApi.speaks_inboxEnvelopes hs hcall hr h
  obtain ⟨userId', ack', page', hbehind, hmade, hwritten⟩ := hresponds.drain rfl
  have heq := WireType.eq_of_accepted (t := .drainInboxRequest)
    (x := (⟨userId, ack⟩ : DrainInboxRequest Bytes)) trivial hbytes (hbehind.of_written hencoded)
  obtain ⟨rfl, rfl⟩ := DrainInboxRequest.mk.inj heq
  exact ⟨page, page', response, rfl, hread, hwritten, served_of_made hd hmade⟩

end Calls

/-! ## 5. What a client can rely on -/

section Reliance

variable {actions : List Action} {s₀ s : Hosted TcpServerApi}

/-- **A call that stores something and succeeds has been accepted by the server object.**  The only
other way is a refusal with an empty text. -/
theorem updates_served {s' : Hosted TcpServerApi} {r : CResult Unit}
    (h₀ : s₀.object.connected = false) (hruns : TcpServerApi.Runs s₀ s) (hr : r.isOk)
    (h : s'.object.Linked (requests api peerAddr t₀ i actions)
      (answers api peerAddr t₀ i actions)) :
    (∀ bundle, TcpServerApi.publishBundle bundle s = (.ok r, s') →
      Served api peerAddr t₀ i actions (.publishBundle bundle) () ∨
        ∃ d, (handled api peerAddr t₀ i actions).getLast? = some d ∧ d.result = .error "") ∧
    ∀ userId envelope, envelope.WellFormed →
      TcpServerApi.enqueueEnvelope userId envelope s = (.ok r, s') →
      Served api peerAddr t₀ i actions (.enqueueEnvelope userId envelope) () ∨
        ∃ d, (handled api peerAddr t₀ i actions).getLast? = some d ∧ d.result = .error "" := by
  have hs := hruns.regular (TcpServerApi.regular_of_not_connected h₀)
  constructor
  · intro bundle hcall
    exact publish_served hs hcall hr h
  · intro userId envelope henvelope hcall
    exact enqueue_served hs henvelope hcall hr h

/-- **A value that a call returns is what the server object has answered to that call.** -/
theorem queries_served (c : ServerCrypto) (b : Backend) {t₀ : TcpServer b.Object}
    (ht₀ : b.Fresh t₀.api) (hframes : Backend.FramesFit actions)
    (h₀ : s₀.object.connected = false) (hruns : TcpServerApi.Runs s₀ s) :
    (∀ userId r s', TcpServerApi.acquireBundleForSession userId s = (.ok r, s') → r.isOk →
      s'.object.Linked (requests (b.api c) peerAddr t₀ i actions)
        (answers (b.api c) peerAddr t₀ i actions) →
      ∃ bundle, r = .ok bundle ∧
        Served (b.api c) peerAddr t₀ i actions (.acquireBundleForSession userId) bundle) ∧
    ∀ userId ack r s', TcpServerApi.drainInbox userId ack s = (.ok r, s') → r.isOk →
      s'.object.Linked (requests (b.api c) peerAddr t₀ i actions)
        (answers (b.api c) peerAddr t₀ i actions) →
      ∃ page, r = .ok page ∧
        Served (b.api c) peerAddr t₀ i actions (.drainInbox userId ack) page := by
  have hs := hruns.regular (TcpServerApi.regular_of_not_connected h₀)
  constructor
  · intro userId r s' hcall hr h
    exact acquire_served hs hcall hr h
  · intro userId ack r s' hcall hr h
    obtain ⟨page, page', response, rfl, hread, hwritten, hserved⟩ := drain_served hs hcall hr h
    have hanswered := hserved
    obtain ⟨d, t, earlier, -, -, hearlier, -, hanswer⟩ := hanswered
    -- what the server object hands out is read back as it is
    obtain ⟨response', harrives⟩ := Backend.page_arrives ht₀
      (hframes.suffix ((List.suffix_cons _ _).trans hearlier)) hanswer
    obtain rfl := Except.ok.inj (hwritten.symm.trans harrives.1)
    obtain rfl := Except.ok.inj (hread.symm.trans harrives.2.1.2.2)
    exact ⟨page, rfl, hserved⟩

end Reliance

end TcpServer

/-! ### Alice writes to herself -/

namespace TcpServerApi

/-- The bytes at the ends of a connection without TLS: what had been sent when it was opened, what
has been sent since, what has been read, and all that arrives. -/
abbrev Plain (api : TcpServerApi) (requests answers : List Frame)
    (sent written read input : Bytes) : Prop :=
  api.tlsEnabled = false ∧
    (api.attempts (api.attempted - 1)).toOption.map
      (fun e => (e.fd.sent, arrived e.fd.incoming)) = some (sent, input) ∧
    api.endpoint.fd.sent = sent ++ written ∧ requests.flatMap encoding <+: written ∧
    input = read ++ arrived api.endpoint.fd.incoming ∧ read <+: answers.flatMap encoding ∧
    ∀ request ∈ requests, Fits request

theorem linked_plain {api : TcpServerApi} {requests answers : List Frame}
    {sent written read input : Bytes} (h : api.Plain requests answers sent written read input) :
    Linked api requests answers := by
  obtain ⟨htls, hopened, hsent, hrequests, hread, htold, hfits⟩ := h
  have hsocket : ∀ e, onSocket api.tlsEnabled e = some e.fd := by
    intro e
    rw [htls]
    rfl
  obtain ⟨endpoint, hattempt, hends⟩ := Option.map_eq_some_iff.mp hopened
  obtain ⟨rfl, rfl⟩ := Prod.mk.inj hends
  refine ⟨⟨endpoint, endpoint.fd, api.endpoint.fd, written, read, ?_, hsocket _, hsocket _, hsent,
    hrequests, hread, htold⟩, hfits⟩
  rcases hresult : api.attempts (api.attempted - 1) with e | e
  · rw [hresult] at hattempt
    cases hattempt
  · rw [hresult] at hattempt
    exact congrArg Except.ok (Option.some.inj hattempt)

end TcpServerApi

namespace Backend.Alice

open TcpServer

def reminder : Envelope Bytes := .fromChat ⟨text "session", user, user, ⟨none, 0, 0, 0⟩, [], [7]⟩

/-- A frame arrives on connection 1 and is handled to its end. -/
def asked (command : UInt32) (payload : Result Bytes) : List Action :=
  [.run 1, .run 1, .run 1, .run 1, .start 1 ⟨command, (do
    serializeAuthenticatedPayload ⟨drawn 2 32, ← payload⟩).toOption.getD []⟩]

/-- Behind her first connection, Alice writes to herself on another. -/
def reminded : List Action :=
  asked TcpCommand.kEnqueueEnvelope (serializeEnqueueRequest ⟨user, reminder⟩) ++ frames

/-- Then she reads her mailbox. -/
def recalled : List Action :=
  asked TcpCommand.kDrainInbox (serializeDrainInboxRequest ⟨user, none⟩) ++ reminded

abbrev addr : Connection → Bytes := fun _ => text "10.0.0.1"

/-- The server, on SQLite. -/
abbrev serverApi : IServerApi sqliteStore.State := sqliteStore.api ServerCrypto.transparent

def page : List (InboxEnvelope Bytes) := [⟨2, reminder⟩]

/-- What comes back. -/
def incoming : List Arrival :=
  ([⟨TcpStatus.kOk, []⟩, ⟨TcpStatus.kOk, (serializeInboxEnvelopeVector page).toOption.getD []⟩] :
    List Frame).map fun frame => .bytes ⟨encoding frame, encoding_ne_nil frame⟩

/-- Her client, with the token that she has got on the first connection. -/
def client : Hosted TcpServerApi where
  host := ⟨fun _ => 1000, 0, fun _ => none, 0⟩
  object := {
    userId := user
    transportAuthPublicKey := [5]
    signFn := some fun message => .ok (sign [5] message)
    registrationToken := []
    tlsEnabled := false
    connected := false
    endpoint := ⟨{ incoming := [] }, none⟩
    sessionToken := drawn 2 32
    sessionExpiresAtUnix := 1900
    attempts := fun _ => .ok ⟨{ incoming }, none⟩
    attempted := 0
    exchanges := [] }

/-- After the first call, and after the second. -/
def written : Hosted TcpServerApi :=
  (TcpServerApi.Call.run (.enqueueEnvelope user reminder) client).2

def drained : Hosted TcpServerApi := (TcpServerApi.Call.run (.drainInbox user none) written).2

theorem linked_written : written.object.Linked (requests serverApi addr server 1 reminded)
    (answers serverApi addr server 1 reminded) := by
  have h : written.object.Plain (requests serverApi addr server 1 reminded)
      (answers serverApi addr server 1 reminded) [] written.object.endpoint.fd.sent
      [0, 0, 0, 0, 0, 0, 0, 0] (arrived incoming) := by decide +kernel
  exact TcpServerApi.linked_plain h

theorem linked_drained : drained.object.Linked (requests serverApi addr server 1 recalled)
    (answers serverApi addr server 1 recalled) := by
  have h : drained.object.Plain (requests serverApi addr server 1 recalled)
      (answers serverApi addr server 1 recalled) [] drained.object.endpoint.fd.sent
      (arrived incoming) (arrived incoming) := by decide +kernel
  exact TcpServerApi.linked_plain h

theorem runs_written : TcpServerApi.Runs client written :=
  .single ⟨.enqueueEnvelope user reminder, rfl⟩

/-- The frame of an action is not too large. -/
def carries : Action → Bool
  | .start _ frame => decide (Fits frame)
  | .run _ => true

theorem framesFit_recalled : FramesFit recalled := by
  have h : recalled.all carries = true := by decide +kernel
  intro i frame hframe
  exact of_decide_eq_true (List.all_eq_true.mp h _ hframe)

end Backend.Alice

section Alice

open TcpServer Backend.Alice

/-- Two requests, each handled once. -/
theorem exchanged_once_alice :
    (handled serverApi addr server 1 recalled).length = 2 ∧
    ∃ k₀ k log, TcpServerApi.Talks drained.object k₀ k log ∧
      log.map (fun x => (x.1, some x.2)) =
        (handled serverApi addr server 1 recalled).map fun d => (d.job, sends d.result) := by
  obtain ⟨htwo, hconnected⟩ : (handled serverApi addr server 1 recalled).length = 2 ∧
      drained.object.connected = true := by decide +kernel
  refine ⟨htwo, exchanged_once (show client.object.connected = false from rfl) ?_ hconnected
    linked_drained⟩
  exact runs_written.tail ⟨.drainInbox user none, rfl⟩

theorem updates_served_alice :
    Served serverApi addr server 1 reminded (.enqueueEnvelope user reminder) () := by
  have hcall : TcpServerApi.enqueueEnvelope user reminder client = (.ok (.ok ()), written) := by
    refine Prod.ext ?_ ?_
    · decide +kernel
    · rw [written, TcpServerApi.Call.run, Proc.bind_pure_apply]
  rcases (updates_served rfl Relation.ReflTransGen.refl rfl linked_written).2 user reminder
    (Or.inr ⟨_, rfl⟩) hcall with hserved | hmute
  · exact hserved
  · obtain ⟨d, hd, hresult⟩ := hmute
    have hok : (handled serverApi addr server 1 reminded).getLast?.map Pool.Done.result =
        some (.ok []) := by decide +kernel
    rw [hd, Option.map_some, hresult] at hok
    cases hok

/-- She reads what she has written. -/
theorem queries_served_alice :
    ∃ page, TcpServerApi.drainInbox user none written = (.ok (.ok page), drained) ∧
      page.map InboxEnvelope.envelope = [reminder] ∧
      Served serverApi addr server 1 recalled (.drainInbox user none) page := by
  have hcall : TcpServerApi.drainInbox user none written = (.ok (.ok page), drained) := by
    refine Prod.ext ?_ ?_
    · decide +kernel
    · rw [drained, TcpServerApi.Call.run, Proc.bind_pure_apply]
  obtain ⟨page', hpage, hserved⟩ := (queries_served ServerCrypto.transparent .sqliteStore
    fresh_store framesFit_recalled rfl runs_written).2 user none (.ok page) drained hcall rfl
    linked_drained
  obtain rfl : page = page' := Option.some.inj (congrArg TextResult.value hpage)
  exact ⟨page, hcall, rfl, hserved⟩

end Alice

end PqChat
