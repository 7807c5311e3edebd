/-
# A database with transactions

`Db T` is a connection to a database whose tables are a value of type `T`.  A statement is
prepared, bound and stepped; each of the three can fail, and what happens to the next statement
is written on a TAPE.  A statement that fails has no effect.  `BEGIN` keeps a copy of the tables
that `ROLLBACK` goes back to and `COMMIT` forgets.

`transaction` is the way the programs here use the three: every error between `BEGIN` and
`COMMIT`, and an error of `COMMIT` itself, is answered with `ROLLBACK` and passed on.
`wp_transaction` says what is left: the tables of the body, or the tables from before.
-/
import PqChat.Lib.Proc

namespace Sql

/-- What happens to one statement. -/
inductive Outcome
  | ok
  /-- It could not be prepared or bound. -/
  | rejected (e : String)
  /-- It was prepared and bound, and stepping it failed. -/
  | failed (e : String)
  deriving DecidableEq, Repr

/-- A connection.  `saved` holds the tables at `BEGIN` while a transaction is open. -/
structure Db (T : Type) where
  tables : T
  saved : Option T
  outcome : Nat → Outcome
  used : Nat

variable {T σ α : Type}

/-- Take the next entry of the tape. -/
def nextOutcome : Proc (Db T) Outcome := fun d =>
  (.ok (d.outcome d.used), { d with used := d.used + 1 })

/-- A statement that changes the tables, unless a constraint forbids it. -/
def exec (f : T → Except String (T × α)) : Proc (Db T) α := do
  match ← nextOutcome with
  | .rejected e | .failed e => Proc.fail e
  | .ok => do
    let d ← Proc.get
    match f d.tables with
    | .error e => Proc.fail e
    | .ok (t, a) => do
      Proc.modify fun d => { d with tables := t }
      pure a

/-- A statement that no constraint can forbid. -/
def update (f : T → T) : Proc (Db T) Unit := exec fun t => .ok (f t, ())

/-- A query.  A step that fails is an error. -/
def query (q : T → α) : Proc (Db T) α := do
  match ← nextOutcome with
  | .rejected e | .failed e => Proc.fail e
  | .ok => do
    let d ← Proc.get
    pure (q d.tables)

/-- A query for one row whose step is only compared with `SQLITE_ROW`: a step that fails counts
as no row. -/
def queryRow (q : T → Option α) : Proc (Db T) (Option α) := do
  match ← nextOutcome with
  | .rejected e => Proc.fail e
  | .failed _ => pure none
  | .ok => do
    let d ← Proc.get
    pure (q d.tables)

/-- `BEGIN IMMEDIATE`. -/
def beginImmediate : Proc (Db T) Unit := do
  match ← nextOutcome with
  | .rejected e | .failed e => Proc.fail e
  | .ok => do
    let d ← Proc.get
    match d.saved with
    | some _ => Proc.fail "cannot start a transaction within a transaction"
    | none => Proc.modify fun d => { d with saved := some d.tables }

/-- `COMMIT`.  After an error the transaction is still open. -/
def commit : Proc (Db T) Unit := do
  match ← nextOutcome with
  | .rejected e | .failed e => Proc.fail e
  | .ok => Proc.modify fun d => { d with saved := none }

/-- `ROLLBACK`. -/
def rollback : Proc (Db T) Unit :=
  Proc.modify fun d => match d.saved with
    | none => d
    | some t => { d with tables := t, saved := none }

/-- A program with a connection among its parts. -/
structure Holder (σ T : Type) where
  get : σ → Db T
  set : Db T → σ → σ
  get_set : ∀ d s, get (set d s) = d
  set_set : ∀ d d' s, set d (set d' s) = set d s

namespace Holder

/-- Run a statement on the connection. -/
def on (h : Holder σ T) (x : Proc (Db T) α) : Proc σ α := Proc.zoom h.get h.set x

end Holder

/-- A body between `BEGIN` and `COMMIT`. -/
def transaction (h : Holder σ T) (body : Proc σ α) : Proc σ α := do
  h.on beginImmediate
  match ← Proc.attempt (do let a ← body; h.on commit; pure a) with
  | .ok a => pure a
  | .error e => do
    h.on rollback
    Proc.fail e

/-! ## Rules

A statement moves the tape; `{ d with used := n }` is the connection after that. -/

/-- The text is reported by a statement of the tape. -/
def Db.Reports (d : Db T) (e : String) : Prop :=
  ∃ n, d.outcome n = .rejected e ∨ d.outcome n = .failed e

section Statements

variable {d : Db T} {Q : Except String α → Db T → Prop}

/-- Every statement starts like this: it does not get to its work, or it does. -/
theorem wp_nextOutcome_bind {f : Outcome → Proc (Db T) α}
    (hrejected : ∀ e n, d.Reports e → Proc.wp (f (.rejected e)) Q { d with used := n })
    (hfailed : ∀ e n, d.Reports e → Proc.wp (f (.failed e)) Q { d with used := n })
    (hok : ∀ n, Proc.wp (f .ok) Q { d with used := n }) : Proc.wp (nextOutcome >>= f) Q d := by
  refine Proc.wp_of_bind_ok rfl ?_
  cases ho : d.outcome d.used with
  | ok => exact hok _
  | rejected e => exact hrejected e _ ⟨_, Or.inl ho⟩
  | failed e => exact hfailed e _ ⟨_, Or.inr ho⟩

theorem wp_exec {f : T → Except String (T × α)}
    (herr : ∀ e n, d.Reports e ∨ f d.tables = .error e → Q (.error e) { d with used := n })
    (hok : ∀ t a n, f d.tables = .ok (t, a) → Q (.ok a) { d with tables := t, used := n }) :
    Proc.wp (exec f) Q d := by
  unfold exec
  refine wp_nextOutcome_bind (fun e n he => herr e n (Or.inl he))
    (fun e n he => herr e n (Or.inl he)) fun n => ?_
  refine Proc.wp_get_bind ?_
  dsimp only
  cases hf : f d.tables with
  | error e => exact Proc.wp_fail (herr e n (Or.inr hf))
  | ok ta => exact Proc.wp_modify_bind (Proc.wp_pure (hok ta.1 ta.2 n hf))

/-- A statement that succeeds has met its constraints. -/
theorem of_exec {f : T → Except String (T × α)} {a : α} {d' : Db T}
    (hrun : exec f d = (.ok a, d')) : ∃ t, f d.tables = .ok (t, a) := by
  have hwp : Proc.wp (exec f) (fun r _ => ∀ a, r = .ok a → ∃ t, f d.tables = .ok (t, a)) d := by
    refine wp_exec (fun _ _ _ => nofun) fun t b _ hf a ha => ?_
    obtain rfl := Except.ok.inj ha
    exact ⟨t, hf⟩
  exact hwp a (Prod.mk.inj hrun).1

theorem wp_update {f : T → T} {Q : Except String Unit → Db T → Prop}
    (herr : ∀ e n, d.Reports e → Q (.error e) { d with used := n })
    (hok : ∀ n, Q (.ok ()) { d with tables := f d.tables, used := n }) :
    Proc.wp (update f) Q d := by
  refine wp_exec (fun e n he => ?_) fun t a n hf => ?_
  · rcases he with he | he
    · exact herr e n he
    · cases he
  · cases hf
    exact hok n

theorem wp_query {q : T → α} (herr : ∀ e n, d.Reports e → Q (.error e) { d with used := n })
    (hok : ∀ n, Q (.ok (q d.tables)) { d with used := n }) : Proc.wp (query q) Q d := by
  unfold query
  exact wp_nextOutcome_bind herr herr fun n => Proc.wp_get_bind (Proc.wp_pure (hok n))

/-- The row that a query returns is the row of the table, if it returns one. -/
theorem wp_queryRow {q : T → Option α} {Q : Except String (Option α) → Db T → Prop}
    (herr : ∀ e n, d.Reports e → Q (.error e) { d with used := n })
    (hok : ∀ r n, (r = none ∨ r = q d.tables) → Q (.ok r) { d with used := n }) :
    Proc.wp (queryRow q) Q d := by
  unfold queryRow
  refine wp_nextOutcome_bind herr (fun _ n _ => hok none n (Or.inl rfl)) fun n => ?_
  exact Proc.wp_get_bind (Proc.wp_pure (hok _ n (Or.inr rfl)))

theorem wp_beginImmediate {Q : Except String Unit → Db T → Prop} (hclosed : d.saved = none)
    (herr : ∀ e n, d.Reports e → Q (.error e) { d with used := n })
    (hok : ∀ n, Q (.ok ()) { d with saved := some d.tables, used := n }) :
    Proc.wp beginImmediate Q d := by
  unfold beginImmediate
  refine wp_nextOutcome_bind herr herr fun n => ?_
  refine Proc.wp_get_bind ?_
  simp only [hclosed]
  exact Proc.wp_modify (hok n)

theorem wp_commit {Q : Except String Unit → Db T → Prop}
    (herr : ∀ e n, d.Reports e → Q (.error e) { d with used := n })
    (hok : ∀ n, Q (.ok ()) { d with saved := none, used := n }) : Proc.wp commit Q d := by
  unfold commit
  exact wp_nextOutcome_bind herr herr fun n => Proc.wp_modify (hok n)

end Statements

section Transactions

variable {h : Holder σ T} {s : σ} {β : Type}

theorem Holder.wp_on {x : Proc (Db T) α} {Q : Except String α → σ → Prop}
    (hx : Proc.wp x (fun r d => Q r (h.set d s)) (h.get s)) : Proc.wp (h.on x) Q s :=
  Proc.wp_zoom hx

theorem Holder.wp_on_bind {x : Proc (Db T) α} {f : α → Proc σ β}
    {Q : Except String β → σ → Prop}
    (hx : Proc.wp x (fun r d => match r with
      | .ok a => Proc.wp (f a) Q (h.set d s)
      | .error e => Q (.error e) (h.set d s)) (h.get s)) : Proc.wp (h.on x >>= f) Q s :=
  Proc.wp_zoom_bind hx

/-- The rule for a transaction.  The body runs with a copy of the tables in `saved` and leaves
the copy alone; if it or the `COMMIT` fails, the copy is put back. -/
theorem wp_transaction {body : Proc σ α} {Q : Except String α → σ → Prop}
    (hclosed : (h.get s).saved = none)
    (hbegin : ∀ e n, (h.get s).Reports e → Q (.error e) (h.set { h.get s with used := n } s))
    (hbody : ∀ n, Proc.wp body (fun r s' =>
      (h.get s').saved = some (h.get s).tables ∧
      match r with
      | .error e => Q (.error e)
        (h.set { h.get s' with tables := (h.get s).tables, saved := none } s')
      | .ok a =>
        (∀ e n, (h.get s').Reports e → Q (.error e)
          (h.set { h.get s' with tables := (h.get s).tables, saved := none, used := n } s')) ∧
        ∀ n, Q (.ok a) (h.set { h.get s' with saved := none, used := n } s'))
      (h.set { h.get s with saved := some (h.get s).tables, used := n } s)) :
    Proc.wp (transaction h body) Q s := by
  unfold transaction
  refine Holder.wp_on_bind (wp_beginImmediate hclosed hbegin fun n => ?_)
  -- the body and the `COMMIT`, with the outcome of both
  refine Proc.wp_bind (R := fun r s₂ => match r with
    | .error _ => False
    | .ok (.ok a) => Q (.ok a) s₂
    | .ok (.error e) => (h.get s₂).saved = some (h.get s).tables ∧
      Q (.error e) (h.set { h.get s₂ with tables := (h.get s).tables, saved := none } s₂))
    (Proc.wp_attempt ?_) (fun _ _ hf => hf.elim) ?_
  · refine Proc.wp_bind (hbody n) (fun e s₂ he => he) fun a s₂ ha => ?_
    obtain ⟨hsaved, herr, hok⟩ := ha
    refine Holder.wp_on_bind (wp_commit (fun e n he => ?_) fun n => hok n)
    simp only [h.get_set, h.set_set]
    exact ⟨hsaved, herr e n he⟩
  · intro r s₂ hr
    cases r with
    | ok a => exact hr
    | error e =>
      obtain ⟨hsaved, hq⟩ := hr
      refine Holder.wp_on_bind (Proc.wp_modify ?_)
      simp only [hsaved]
      exact hq

/-- A transaction that succeeds is a body that does. -/
theorem body_of_transaction {body : Proc σ α} {a : α} {s' : σ}
    (hrun : transaction h body s = (.ok a, s')) : ∃ s₁ s₂, body s₁ = (.ok a, s₂) := by
  obtain ⟨_, s₁, -, hrun⟩ := Proc.bind_eq_ok_iff.mp hrun
  obtain ⟨r, s₂, hattempt, hrun⟩ := Proc.bind_eq_ok_iff.mp hrun
  cases r with
  | error e =>
    obtain ⟨_, _, -, hfail⟩ := Proc.bind_eq_ok_iff.mp hrun
    cases hfail
  | ok b =>
    obtain rfl := Except.ok.inj (Prod.mk.inj hrun).1
    rcases hboth : (do let a ← body; h.on commit; pure a : Proc σ α) s₁ with ⟨r, s₃⟩
    obtain rfl := Except.ok.inj (Prod.mk.inj ((Proc.attempt_apply hboth).symm.trans hattempt)).1
    obtain ⟨b', s₄, hbody, hcommit⟩ := Proc.bind_eq_ok_iff.mp hboth
    obtain ⟨_, _, -, hpure⟩ := Proc.bind_eq_ok_iff.mp hcommit
    obtain rfl := Except.ok.inj (Prod.mk.inj hpure).1
    exact ⟨s₁, s₄, hbody⟩

theorem Holder.on_eq_ok {x : Proc (Db T) α} {a : α} {s' : σ} (hrun : h.on x s = (.ok a, s')) :
    ∃ d, x (h.get s) = (.ok a, d) ∧ s' = h.set d s := by
  obtain ⟨hr, rfl⟩ := Prod.mk.inj hrun
  exact ⟨_, Prod.ext hr rfl, rfl⟩

end Transactions

/-! ## Inside a transaction

What a transaction is about is the tables at its end; an error puts the old ones back.  Inside
it, a statement is walked through by what it does to the tables. -/

/-- Inside a transaction: the copy of the tables is left alone, and if `x` succeeds with `a`,
the tables satisfy `G a`. -/
def Inside (h : Holder σ T) (x : Proc σ α) (G : α → T → Prop) (s : σ) : Prop :=
  Proc.wp x (fun r s' => (h.get s').saved = (h.get s).saved ∧
    ∀ a, r = .ok a → G a (h.get s').tables) s

section Inside

variable {h : Holder σ T} {s : σ} {β : Type} {G : β → T → Prop}

theorem inside_pure {b : β} (hG : G b (h.get s).tables) : Inside h (pure b) G s := by
  refine Proc.wp_pure ⟨rfl, fun a ha => ?_⟩
  obtain rfl := Except.ok.inj ha
  exact hG

theorem inside_fail (e : String) : Inside h (Proc.fail e : Proc σ β) G s :=
  Proc.wp_fail ⟨rfl, nofun⟩

theorem inside_ofExcept {p : String} {r : Except String β}
    (hG : ∀ b, r = .ok b → G b (h.get s).tables) : Inside h (Proc.ofExcept p r) G s := by
  refine Proc.wp_ofExcept (fun e _ => ⟨rfl, nofun⟩) fun b hb => ⟨rfl, fun a ha => ?_⟩
  obtain rfl := Except.ok.inj ha
  exact hG b hb

/-- A statement, or several, by what they do to the tables. -/
theorem inside_bind {x : Proc (Db T) α} {P : α → T → Prop} {f : α → Proc σ β}
    (hx : Proc.wp x (fun r d => d.saved = (h.get s).saved ∧ ∀ a, r = .ok a → P a d.tables)
      (h.get s))
    (hf : ∀ a s', P a (h.get s').tables → Inside h (f a) G s') :
    Inside h (h.on x >>= f) G s := by
  refine Holder.wp_on_bind (Proc.wp_mono hx fun r d hr => ?_)
  have hsaved : (h.get (h.set d s)).saved = (h.get s).saved := by
    rw [h.get_set]
    exact hr.1
  cases r with
  | error e => exact ⟨hsaved, nofun⟩
  | ok a =>
    refine Proc.wp_mono (hf a (h.set d s) ?_) fun _ _ hr' => ⟨hr'.1.trans hsaved, hr'.2⟩
    rw [h.get_set]
    exact hr.2 a rfl

theorem inside_on {x : Proc (Db T) β}
    (hx : Proc.wp x (fun r d => d.saved = (h.get s).saved ∧ ∀ a, r = .ok a → G a d.tables)
      (h.get s)) : Inside h (h.on x) G s := by
  refine Holder.wp_on (Proc.wp_mono hx fun r d hr => ?_)
  rw [h.get_set]
  exact hr

theorem inside_exec_bind {g : T → Except String (T × α)} {f : α → Proc σ β}
    (hf : ∀ t a s', g (h.get s).tables = .ok (t, a) → (h.get s').tables = t →
      Inside h (f a) G s') : Inside h (h.on (exec g) >>= f) G s := by
  refine inside_bind (P := fun a t => g (h.get s).tables = .ok (t, a))
    (wp_exec (fun _ _ _ => ⟨rfl, nofun⟩) fun t a n hg => ⟨rfl, fun a' ha => ?_⟩)
    fun a s' hs => hf _ a s' hs rfl
  obtain rfl := Except.ok.inj ha
  exact hg

theorem inside_update_bind {g : T → T} {f : Unit → Proc σ β}
    (hf : ∀ s', (h.get s').tables = g (h.get s).tables → Inside h (f ()) G s') :
    Inside h (h.on (update g) >>= f) G s :=
  inside_bind (P := fun _ t => t = g (h.get s).tables)
    (wp_update (fun _ _ _ => ⟨rfl, nofun⟩) fun _ => ⟨rfl, fun _ _ => rfl⟩) fun _ s' => hf s'

theorem inside_query_bind {q : T → α} {f : α → Proc σ β}
    (hf : ∀ s', (h.get s').tables = (h.get s).tables → Inside h (f (q (h.get s).tables)) G s') :
    Inside h (h.on (query q) >>= f) G s := by
  refine inside_bind (P := fun a t => a = q (h.get s).tables ∧ t = (h.get s).tables)
    (wp_query (fun _ _ _ => ⟨rfl, nofun⟩) fun _ => ⟨rfl, fun a ha => ?_⟩) fun a s' ha => ?_
  · obtain rfl := Except.ok.inj ha
    exact ⟨rfl, rfl⟩
  · rw [ha.1]
    exact hf s' ha.2

theorem inside_queryRow_bind {q : T → Option α} {f : Option α → Proc σ β}
    (hf : ∀ r s', r = none ∨ r = q (h.get s).tables → (h.get s').tables = (h.get s).tables →
      Inside h (f r) G s') : Inside h (h.on (queryRow q) >>= f) G s := by
  refine inside_bind (P := fun r t => (r = none ∨ r = q (h.get s).tables) ∧
    t = (h.get s).tables)
    (wp_queryRow (fun _ _ _ => ⟨rfl, nofun⟩) fun r n hr => ⟨rfl, fun a ha => ?_⟩)
    fun r s' hr => hf r s' hr.1 hr.2
  obtain rfl := Except.ok.inj ha
  exact ⟨hr, rfl⟩

/-- A transaction leaves the tables of its body, or those from before; none is open then. -/
theorem wp_transaction_inside {body : Proc σ β} (hclosed : (h.get s).saved = none)
    (hbody : ∀ s', (h.get s').tables = (h.get s).tables → Inside h body G s') :
    Proc.wp (transaction h body) (fun r s' => (h.get s').saved = none ∧
      (∀ e, r = .error e → (h.get s').tables = (h.get s).tables) ∧
      ∀ b, r = .ok b → G b (h.get s').tables) s := by
  refine wp_transaction hclosed (fun e n _ => ?_) fun n => ?_
  · rw [h.get_set]
    exact ⟨hclosed, fun _ _ => rfl, nofun⟩
  · have hstart := hbody (h.set { h.get s with saved := some (h.get s).tables, used := n } s)
      (by rw [h.get_set])
    refine Proc.wp_mono hstart fun r s' hr => ?_
    rw [h.get_set] at hr
    refine ⟨hr.1, ?_⟩
    cases r with
    | error e =>
      dsimp only
      rw [h.get_set]
      exact ⟨rfl, fun _ _ => rfl, nofun⟩
    | ok b =>
      refine ⟨fun e n _ => ?_, fun n => ?_⟩
      · rw [h.get_set]
        exact ⟨rfl, fun _ _ => rfl, nofun⟩
      · rw [h.get_set]
        exact ⟨rfl, nofun, hr.2⟩

end Inside

/-! ## What no statement changes

A property of the tables that every statement of a program keeps is kept by the program, also
through transactions that are rolled back. -/

/-- The tables, and those that a `ROLLBACK` would put back, satisfy `F`. -/
def Db.Keeps (F : T → Prop) (d : Db T) : Prop := F d.tables ∧ ∀ t, d.saved = some t → F t

section Keeps

variable {F : T → Prop}

theorem preserves_exec {f : T → Except String (T × α)}
    (hf : ∀ t t' a, f t = .ok (t', a) → F t → F t') : Proc.Preserves (Db.Keeps F) (exec f) := by
  intro d hd
  refine wp_exec (Q := fun _ d' => d'.Keeps F) (fun _ _ _ => hd) fun t a n h => ?_
  exact ⟨hf _ _ _ h hd.1, hd.2⟩

theorem preserves_update {f : T → T} (hf : ∀ t, F t → F (f t)) :
    Proc.Preserves (Db.Keeps F) (update f) := by
  refine preserves_exec fun t t' a h ht => ?_
  cases h
  exact hf t ht

theorem preserves_query (q : T → α) : Proc.Preserves (Db.Keeps F) (query q) := fun _ hd =>
  wp_query (Q := fun _ d' => d'.Keeps F) (fun _ _ _ => hd) fun _ => hd

theorem preserves_queryRow (q : T → Option α) : Proc.Preserves (Db.Keeps F) (queryRow q) :=
  fun _ hd => wp_queryRow (Q := fun _ d' => d'.Keeps F) (fun _ _ _ => hd) fun _ _ _ => hd

theorem preserves_beginImmediate :
    Proc.Preserves (Db.Keeps F) (beginImmediate : Proc (Db T) Unit) := by
  intro d hd
  refine wp_nextOutcome_bind (Q := fun _ d' => d'.Keeps F) (fun _ _ _ => hd) (fun _ _ _ => hd)
    fun n => Proc.wp_get_bind ?_
  dsimp only
  cases hs : d.saved with
  | some t => exact Proc.wp_fail ⟨hd.1, fun t' ht => hd.2 t' (hs.trans ht)⟩
  | none =>
    refine Proc.wp_modify ⟨hd.1, fun t ht => ?_⟩
    obtain rfl := Option.some.inj ht
    exact hd.1

theorem preserves_commit : Proc.Preserves (Db.Keeps F) (commit : Proc (Db T) Unit) := fun _ hd =>
  wp_commit (Q := fun _ d' => d'.Keeps F) (fun _ _ _ => hd) fun _ => ⟨hd.1, nofun⟩

theorem preserves_rollback : Proc.Preserves (Db.Keeps F) (rollback : Proc (Db T) Unit) := by
  refine Proc.Preserves.modify fun d hd => ?_
  cases hs : d.saved with
  | none => exact hd
  | some t => exact ⟨hd.2 t hs, nofun⟩

theorem Holder.preserves_on (h : Holder σ T) {x : Proc (Db T) α}
    (hx : Proc.Preserves (Db.Keeps F) x) :
    Proc.Preserves (fun s => (h.get s).Keeps F) (h.on x) := by
  refine Proc.Preserves.zoom fun s hs => ?_
  rw [h.get_set]
  exact hx _ hs

theorem preserves_transaction (h : Holder σ T) {body : Proc σ α}
    (hbody : Proc.Preserves (fun s => (h.get s).Keeps F) body) :
    Proc.Preserves (fun s => (h.get s).Keeps F) (transaction h body) := by
  refine .bind (h.preserves_on preserves_beginImmediate) fun _ => ?_
  refine .bind (.attempt (.bind hbody fun a => ?_)) fun r => ?_
  · exact .bind (h.preserves_on preserves_commit) fun _ => .pure a
  · cases r with
    | ok a => exact .pure a
    | error e => exact .bind (h.preserves_on preserves_rollback) fun _ => .fail e

end Keeps

/-! ## When every statement succeeds

Then a statement is a function of the tables, and a transaction is its body. -/

/-- Every statement succeeds. -/
def Db.Reliable (d : Db T) : Prop := ∀ n, d.outcome n = .ok

/-- The connection with other tables, one place further on the tape. -/
def Db.moved (d : Db T) (tables : T) : Db T := { d with tables, used := d.used + 1 }

/-- The connection after `BEGIN`. -/
def Db.begun (d : Db T) : Db T := { d with saved := some d.tables, used := d.used + 1 }

/-- The connection after `COMMIT`. -/
def Db.committed (d : Db T) : Db T := { d with saved := none, used := d.used + 1 }

section Reliable

variable {d : Db T}

theorem exec_of_ok (hd : d.Reliable) {f : T → Except String (T × α)} {t : T} {a : α}
    (hf : f d.tables = .ok (t, a)) : exec f d = (.ok a, d.moved t) := by
  simp [exec, nextOutcome, Proc.bind_apply, hd d.used, hf, Db.moved]

theorem update_of_ok (hd : d.Reliable) (f : T → T) :
    update f d = (.ok (), d.moved (f d.tables)) := exec_of_ok hd rfl

theorem query_of_ok (hd : d.Reliable) (q : T → α) :
    query q d = (.ok (q d.tables), d.moved d.tables) := by
  simp [query, nextOutcome, Proc.bind_apply, hd d.used, Db.moved]

theorem queryRow_of_ok (hd : d.Reliable) (q : T → Option α) :
    queryRow q d = (.ok (q d.tables), d.moved d.tables) := by
  simp [queryRow, nextOutcome, Proc.bind_apply, hd d.used, Db.moved]

theorem beginImmediate_of_ok (hd : d.Reliable) (hclosed : d.saved = none) :
    beginImmediate d = (.ok (), d.begun) := by
  simp [beginImmediate, nextOutcome, Proc.bind_apply, hd d.used, hclosed, Db.begun]

theorem commit_of_ok (hd : d.Reliable) : commit d = (.ok (), d.committed) := by
  simp [commit, nextOutcome, Proc.bind_apply, hd d.used, Db.committed]

theorem Holder.on_of_ok {h : Holder σ T} {x : Proc (Db T) α} {s : σ} {a : α} {d : Db T}
    (hx : x (h.get s) = (.ok a, d)) : h.on x s = (.ok a, h.set d s) := by
  rw [Holder.on, Proc.zoom, hx]

/-- A transaction whose body succeeds. -/
theorem transaction_of_ok {h : Holder σ T} {body : Proc σ α} {s s₁ : σ} {a : α}
    (hd : (h.get s).Reliable) (hclosed : (h.get s).saved = none)
    (hbody : body (h.set (h.get s).begun s) = (.ok a, s₁)) (h₁ : (h.get s₁).Reliable) :
    transaction h body s = (.ok a, h.set (h.get s₁).committed s₁) := by
  unfold transaction
  rw [Proc.bind_ok (Holder.on_of_ok (beginImmediate_of_ok hd hclosed))]
  have hcommit : (do let a ← body; h.on commit; pure a : Proc σ α) (h.set (h.get s).begun s) =
      (.ok a, h.set (h.get s₁).committed s₁) := by
    rw [Proc.bind_ok hbody, Proc.bind_ok (Holder.on_of_ok (commit_of_ok h₁))]
    rfl
  rw [Proc.bind_ok (Proc.attempt_apply hcommit)]
  rfl

/-- A transaction whose body fails. -/
theorem transaction_of_error {h : Holder σ T} {body : Proc σ α} {s s₁ : σ} {e : String}
    (hd : (h.get s).Reliable) (hclosed : (h.get s).saved = none)
    (hbody : body (h.set (h.get s).begun s) = (.error e, s₁))
    (h₁ : (h.get s₁).saved = some (h.get s).tables) :
    transaction h body s =
      (.error e, h.set { h.get s₁ with tables := (h.get s).tables, saved := none } s₁) := by
  unfold transaction
  rw [Proc.bind_ok (Holder.on_of_ok (beginImmediate_of_ok hd hclosed))]
  rw [Proc.bind_ok (Proc.attempt_apply (Proc.bind_error hbody _))]
  have hrollback : rollback (h.get s₁) =
      (.ok (), { h.get s₁ with tables := (h.get s).tables, saved := none }) := by
    rw [rollback, Proc.modify_apply, h₁]
  dsimp only
  rw [Proc.bind_ok (Holder.on_of_ok hrollback)]
  rfl

/-- `x` succeeds with `a` and leaves the tables `t`; nothing but the connection changes. -/
def Leaves (h : Holder σ T) (x : Proc σ α) (s : σ) (a : α) (t : T) : Prop :=
  ∃ d, x s = (.ok a, h.set d s) ∧ d.Reliable ∧ d.saved = (h.get s).saved ∧ d.tables = t

variable {h : Holder σ T} {s : σ} {β : Type}

theorem leaves_exec (hd : (h.get s).Reliable) {f : T → Except String (T × α)} {t : T} {a : α}
    (hf : f (h.get s).tables = .ok (t, a)) : Leaves h (h.on (exec f)) s a t :=
  ⟨_, Holder.on_of_ok (exec_of_ok hd hf), hd, rfl, rfl⟩

theorem leaves_update (hd : (h.get s).Reliable) {f : T → T} {t : T}
    (hf : f (h.get s).tables = t) : Leaves h (h.on (update f)) s () t :=
  ⟨_, Holder.on_of_ok (update_of_ok hd f), hd, rfl, hf⟩

theorem leaves_query (hd : (h.get s).Reliable) {q : T → α} {a : α}
    (hq : q (h.get s).tables = a) : Leaves h (h.on (query q)) s a (h.get s).tables :=
  ⟨(h.get s).moved (h.get s).tables, Holder.on_of_ok (hq ▸ query_of_ok hd q), hd, rfl, rfl⟩

theorem leaves_queryRow (hd : (h.get s).Reliable) {q : T → Option α} {a : Option α}
    (hq : q (h.get s).tables = a) : Leaves h (h.on (queryRow q)) s a (h.get s).tables :=
  ⟨(h.get s).moved (h.get s).tables, Holder.on_of_ok (hq ▸ queryRow_of_ok hd q), hd, rfl, rfl⟩

theorem leaves_bind {x : Proc σ α} {f : α → Proc σ β} {a : α} {b : β} {t t' : T}
    (hx : Leaves h x s a t)
    (hf : ∀ d, d.Reliable → d.saved = (h.get s).saved → d.tables = t →
      Leaves h (f a) (h.set d s) b t') : Leaves h (x >>= f) s b t' := by
  obtain ⟨d, hx, hd, hsaved, htables⟩ := hx
  obtain ⟨d', hf, hd', hsaved', htables'⟩ := hf d hd hsaved htables
  rw [h.set_set] at hf
  rw [h.get_set] at hsaved'
  exact ⟨d', (Proc.bind_ok hx f).trans hf, hd', hsaved'.trans hsaved, htables'⟩

theorem leaves_transaction {body : Proc σ α} {a : α} {t : T} (hd : (h.get s).Reliable)
    (hclosed : (h.get s).saved = none)
    (hbody : ∀ d, d.Reliable → d.tables = (h.get s).tables → Leaves h body (h.set d s) a t) :
    Leaves h (transaction h body) s a t := by
  obtain ⟨d, hrun, hd', -, htables⟩ := hbody (h.get s).begun hd rfl
  rw [h.set_set] at hrun
  have hget : h.get (h.set d s) = d := h.get_set d s
  refine ⟨d.committed, ?_, hd', hclosed.symm, htables⟩
  rw [transaction_of_ok hd hclosed hrun (by rw [hget]; exact hd'), hget, h.set_set]

end Reliable

end Sql
