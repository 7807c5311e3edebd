/-
# The state file on its file system

`SaveLocalState` writes to a temporary file, syncs it, renames it and syncs the directory.  Each
call of the operating system may fail, and the process or the computer may stop behind any of
them.  The calls are made here one by one on a `FileSystem`; the tape `answers` says what becomes
of them, and where it ends the process stops.

Once the state directory and those above it have come to the disk, the state file holds the bytes
of one save as a whole, whatever happens, and after a crash those of the last save that returned
without an error or of one after it (`Saves.leaves`).  So `LoadLocalState` restores one of these
clients (`Saves.restores`).  The condition is needed: `EnsureStateDir` makes a directory without a
sync of the one above, and a crash may lose it with the file that has just been saved
(`saveFile_lost`).

The disk of `World`, with a `DiskOutcome` for each access, is what the file is to the rest of the
client (`saveFile_refines`, `loadFile_refines`).
-/
import PqChat.Lib.FileSystem
import PqChat.Client.StateFile

namespace PqChat

open ByteString

namespace Persistence

/-! ## 1. The path -/

def slash : UInt8 := 47

/-- `path.substr(0, path.find_last_of('/'))`.  There is none without a slash, or if it is the
first character. -/
def parent (path : Bytes) : Option Bytes :=
  match (path.reverse.dropWhile (· ≠ slash)).tail.reverse with
  | [] => none
  | dir => some dir

/-- The characters that `SanitizeForFile` keeps. -/
def keeps (c : UInt8) : Bool :=
  (97 ≤ c && c ≤ 122) || (65 ≤ c && c ≤ 90) || (48 ≤ c && c ≤ 57) || c = 45 || c = 95 || c = 46

/-- `SanitizeForFile`. -/
def sanitizeForFile (input : Bytes) : Bytes :=
  match input.map fun c => if keeps c then c else 95 with
  | [] => ascii "user"
  | out => out

/-- The environment variables that `DefaultLocalStatePath` reads. -/
structure Variables where
  stateDir : Option Bytes
  xdgStateHome : Option Bytes
  home : Option Bytes

/-- A variable that is set, and not to the empty string. -/
def nonempty : Option Bytes → Option Bytes
  | some [] => none
  | x => x

/-- The directory part of `DefaultLocalStatePath`. -/
def stateDirectory (vars : Variables) : Bytes :=
  match nonempty vars.stateDir, nonempty vars.xdgStateHome, nonempty vars.home with
  | some dir, _, _ => dir
  | none, some xdg, _ => xdg ++ ascii "/pqchat"
  | none, none, some home => home ++ ascii "/.local/state/pqchat"
  | none, none, none => ascii "/tmp/pqchat_state"

/-- `DefaultLocalStatePath`. -/
def defaultLocalStatePath (vars : Variables) (userId : Bytes) : Bytes :=
  stateDirectory vars ++ slash :: sanitizeForFile userId ++ ascii ".bin"

/-! ## 2. The operating system -/

/-- What becomes of a call. -/
inductive Answer
  | ok
  | failed
  /-- `EINTR`. -/
  | interrupted
  /-- `write`: so many bytes. -/
  | wrote (n : Nat)
  /-- `mkstemp`: what it has put for `XXXXXX`. -/
  | named (suffix : Bytes)
  deriving DecidableEq, Repr

/-- A process on its computer. -/
structure Machine where
  fs : FileSystem Bytes UInt8
  answers : List Answer

/-- A process that makes calls.  An error is not the result of a function: the process has
stopped. -/
abbrev Sys := Proc Machine

/-- What becomes of the next call. -/
def answer : Sys Answer := fun m =>
  match m.answers with
  | [] => (.error "stopped", m)
  | a :: answers => (.ok a, { m with answers := answers })

/-- A call that has an effect if it succeeds. -/
def call (effect : FileSystem Bytes UInt8 → FileSystem Bytes UInt8) : Sys Bool := do
  match ← answer with
  | .ok => do
    Proc.modify fun m => { m with fs := effect m.fs }
    pure true
  | _ => pure false

/-- `lstat`: nothing if it fails. -/
def lstat (path : Bytes) : Sys (Option Node) := do
  let m ← Proc.get
  match ← answer with
  | .ok => pure (m.fs.names path)
  | _ => pure none

/-- The characters that `mkstemp` puts for `XXXXXX`. -/
def alphanumeric (c : UInt8) : Bool :=
  (97 ≤ c && c ≤ 122) || (65 ≤ c && c ≤ 90) || (48 ≤ c && c ≤ 57)

/-- `mkstemp`, for a template that ends in `XXXXXX`: the file and its name. -/
def mkstemp (template : Bytes) : Sys (Option (Nat × Bytes)) := do
  match ← answer with
  | .named suffix => do
    let m ← Proc.get
    let path := template ++ suffix
    if suffix.length = 6 ∧ suffix.all alphanumeric ∧ m.fs.names path = none then do
      Proc.modify fun m => { m with fs := m.fs.create path 0o600 }
      pure (some (m.fs.next, path))
    else pure none
  | _ => pure none

def fchmod (fd mode : Nat) : Sys Bool := call fun fs => fs.chmod fd mode

def fsync (fd : Nat) : Sys Bool := call fun fs => fs.sync fd

def close : Sys Bool := call id

def unlink (path : Bytes) : Sys Bool := call fun fs => fs.unlink path

def rename (old new : Bytes) : Sys Bool := call fun fs => fs.rename old new

/-- `open` of a directory. -/
def openDirectory : Sys Bool := call id

/-- `fsync` of a directory. -/
def fsyncEntries (dir : Bytes) : Sys Bool :=
  call fun fs => fs.syncDirectory fun path => decide (parent path = some dir)

def chmod : Sys Bool := call id

/-! ## 3. The functions -/

/-- `FsyncDirectory`. -/
def fsyncDirectory (dir : Bytes) : Sys (Result Unit) := do
  if ¬ (← openDirectory) then pure (.error "failed opening state directory")
  else if ¬ (← fsyncEntries dir) then do
    let _ ← close
    pure (.error "failed syncing state directory")
  else if ¬ (← close) then pure (.error "failed closing state directory")
  else pure (.ok ())

/-- The loop around `write`, for the bytes that are left. -/
def writeLoop (fd : Nat) : Nat → Bytes → Sys Bool
  | 0, _ => Proc.fail "stopped"
  | turns + 1, bytes =>
    if bytes = [] then pure true
    else do
      match ← answer with
      | .interrupted => writeLoop fd turns bytes
      | .wrote n => do
        Proc.modify fun m => { m with fs := m.fs.append fd (bytes.take n) }
        writeLoop fd turns (bytes.drop n)
      | _ => pure false

/-- Every turn takes an answer, so there is one more turn than there are answers. -/
def writeBytes (fd : Nat) (bytes : Bytes) : Sys Bool := do
  let m ← Proc.get
  writeLoop fd (m.answers.length + 1) bytes

/-- The temporary file is given up. -/
def abandon (tmp : Bytes) (e : String) : Sys (Result Unit) := do
  let _ ← unlink tmp
  pure (.error e)

/-- `WriteAllFileAtomic`. -/
def writeAllFileAtomic (path bytes : Bytes) : Sys (Result Unit) := do
  match parent path with
  | none => pure (.error "invalid local state path")
  | some dir => do
    match ← lstat path with
    | some (.symlink _) => pure (.error "state file path must not be a symlink")
    | _ => do
      match ← mkstemp (dir ++ ascii "/.pqchat_state_tmp_") with
      | none => pure (.error "failed to open state temp file")
      | some (fd, tmp) => do
        if ¬ (← fchmod fd 0o600) then do
          let _ ← close
          abandon tmp "failed setting state temp file permissions"
        else if ¬ (← writeBytes fd bytes) then do
          let _ ← close
          abandon tmp "failed writing state file"
        else if ¬ (← fsync fd) then do
          let _ ← close
          abandon tmp "failed syncing state file"
        else if ¬ (← close) then abandon tmp "failed closing state file"
        else if ¬ (← rename tmp path) then abandon tmp "failed committing state file"
        else fsyncDirectory dir

/-- The directories through which a path is looked up: what is before a slash. -/
def above (path : Bytes) : List Bytes :=
  ((List.range path.length).filter fun i => i ≠ 0 ∧ path[i]? = some slash).map (path.take ·)

/-- The directories that `create_directories` makes: those above, and the directory itself. -/
def ancestors (dir : Bytes) : List Bytes := above dir ++ [dir]

/-- What is missing of some directories is made.  A symlink is followed; anything that is not a
directory is in the way. -/
def createMissing : List Bytes → Sys Bool
  | [] => pure true
  | dir :: rest => do
    let m ← Proc.get
    match m.fs.names dir with
    | some node => if Node.target (some node) = .directory then createMissing rest else pure false
    | none => do
      if ¬ (← call fun fs => fs.mkdir dir) then pure false
      else createMissing rest

/-- `EnsureStateDir`. -/
def ensureStateDir (dir : Bytes) : Sys (Result Unit) := do
  match ← lstat dir with
  | some (.symlink _) => pure (.error "state directory path must not be a symlink")
  | some (.file _) => pure (.error "state path is not a directory")
  | some .directory =>
    if ¬ (← chmod) then pure (.error "failed setting state directory permissions")
    else pure (.ok ())
  | none => do
    if ¬ (← createMissing (ancestors dir)) then pure (.error "failed creating state directory")
    else if ¬ (← chmod) then pure (.error "failed setting state directory permissions")
    else pure (.ok ())

/-- `SaveLocalState`, for the payload that it comes to. -/
def saveFile (path : Bytes) (payload : Result Bytes) : Sys (Result Unit) := do
  match parent path with
  | none => pure (.error "invalid local state path")
  | some dir => do
    match ← ensureStateDir dir with
    | .error e => pure (.error e)
    | .ok _ =>
      match payload with
      | .error e => pure (.error e)
      | .ok bytes => writeAllFileAtomic path bytes

/-- `ReadAllFile`.  A file that cannot be opened counts as missing, and so does a directory in its
place. -/
def readAllFile (path : Bytes) : Sys (Result Bytes) := do
  let m ← Proc.get
  let opened ← call id
  match (if opened then m.fs.read path else none) with
  | none => pure (.error "state file missing")
  | some data =>
    if ¬ (← call id) then pure (.error "failed to read state size")
    else if data.length > StateFile.kMaxStateFileBytes then pure (.error "state file too large")
    else if ¬ (← call id) ∧ data ≠ [] then pure (.error "state file read truncated")
    else pure (.ok data)

/-- `LoadLocalState`. -/
def loadFile (p : StateFile.Provider) (env : StateFile.Environment) (userId path : Bytes) :
    Sys (Result (Client Bytes)) := do
  match ← readAllFile path with
  | .error e => pure (.error e)
  | .ok file => pure (StateFile.loadLocalState p env userId (some file))

/-! ## 4. What each call does -/

section Calls

variable {α β : Type} {I P : FileSystem Bytes UInt8 → Prop}

/-- From `P` on, a sequence of calls ends in `Q`, or the process stops in `I`. -/
abbrev Does (I P : FileSystem Bytes UInt8 → Prop) (x : Sys α)
    (Q : α → FileSystem Bytes UInt8 → Prop) : Prop :=
  Proc.Triple (fun m : Machine => I m.fs) (fun m => P m.fs) x fun a m => Q a m.fs

theorem does_answer (hI : ∀ fs, P fs → I fs) : Does I P answer fun _ => P := by
  intro m hm
  rw [Proc.wp, answer]
  cases m.answers with
  | nil => exact hI _ hm
  | cons a answers => exact hm

theorem does_call {effect : FileSystem Bytes UInt8 → FileSystem Bytes UInt8}
    {Q : Bool → FileSystem Bytes UInt8 → Prop} (hI : ∀ fs, P fs → I fs)
    (hdone : ∀ fs, P fs → Q true (effect fs)) (hfailed : ∀ fs, P fs → Q false fs) :
    Does I P (call effect) Q := by
  refine .bind (does_answer hI) fun a => ?_
  cases a with
  | ok => exact fun m hm => hdone m.fs hm
  | _ => exact .pure _ fun m hm => hfailed m.fs hm

/-- The idiom of the functions: something else is done if a call fails. -/
theorem does_checked {effect : FileSystem Bytes UInt8 → FileSystem Bytes UInt8}
    {T F : FileSystem Bytes UInt8 → Prop} {x y : Sys α} {Q : α → FileSystem Bytes UInt8 → Prop}
    (hI : ∀ fs, P fs → I fs) (hdone : ∀ fs, P fs → T (effect fs)) (hfailed : ∀ fs, P fs → F fs)
    (hx : Does I F x Q) (hy : Does I T y Q) :
    Does I P (do if ¬ (← call effect) then x else y) Q := by
  refine .bind (does_call (Q := fun done fs => (done = true → T fs) ∧ (done = false → F fs)) hI
    (fun fs h => ⟨fun _ => hdone fs h, fun h => by cases h⟩)
    fun fs h => ⟨fun h => absurd h Bool.false_ne_true, fun _ => hfailed fs h⟩) fun done =>
      .ite (fun h => ?_) fun h => ?_
  · exact hx.mono (fun _ hm => hm.2 (Bool.eq_false_of_not_eq_true h)) fun _ _ h => h
  · exact hy.mono (fun _ hm => hm.1 (not_not.mp h)) fun _ _ h => h

theorem does_lstat (hI : ∀ fs, P fs → I fs) (path : Bytes) :
    Does I P (lstat path) fun _ => P := by
  refine .get_bind fun m => .bind (R := fun _ m => P m.fs) ?_ fun a => ?_
  · exact (does_answer hI).mono (fun _ h => h.2) fun _ _ h => h
  · cases a with
    | ok => exact .pure _ fun _ h => h
    | _ => exact .pure _ fun _ h => h

/-- A new file has a free name. -/
theorem does_mkstemp {Q : Option (Nat × Bytes) → FileSystem Bytes UInt8 → Prop}
    (hI : ∀ fs, P fs → I fs) {template : Bytes}
    (hdone : ∀ fs suffix, P fs → suffix.length = 6 → suffix.all alphanumeric →
      fs.names (template ++ suffix) = none →
      Q (some (fs.next, template ++ suffix)) (fs.create (template ++ suffix) 0o600))
    (hfailed : ∀ fs, P fs → Q none fs) : Does I P (mkstemp template) Q := by
  refine .bind (does_answer hI) fun a => ?_
  cases a with
  | named suffix =>
    refine .get_bind fun m => .ite (fun h => ?_) fun _ => ?_
    · intro m' hm
      obtain ⟨rfl, hm⟩ := hm
      exact hdone _ suffix hm h.1 h.2.1 h.2.2
    · exact .pure _ fun m' hm => hfailed _ hm.2
  | _ => exact .pure _ fun m hm => hfailed m.fs hm

/-- The loop writes all bytes or fails. -/
theorem does_writeLoop {W : Bytes → FileSystem Bytes UInt8 → Prop} (fd : Nat)
    (hI : ∀ b fs, W b fs → I fs) (happend : ∀ b b' fs, W b fs → W (b ++ b') (fs.append fd b')) :
    ∀ (turns : Nat) (done rest : Bytes), Does I (W done) (writeLoop fd turns rest)
      fun b fs => ∃ all, W all fs ∧ (b = true → all = done ++ rest) := by
  intro turns
  induction turns with
  | zero => exact fun done rest => .fail _ fun m hm => hI done m.fs hm
  | succ turns ih =>
    intro done rest
    refine .ite (fun hempty => .pure _ fun m hm => ⟨done, hm, fun _ => ?_⟩) fun _ => ?_
    · rw [hempty, List.append_nil]
    · refine .bind (does_answer (hI done)) fun a => ?_
      cases a with
      | interrupted => exact ih done rest
      | wrote n =>
        refine .bind (R := fun _ m => W (done ++ rest.take n) m.fs)
          (.modify fun m hm => happend done _ m.fs hm) fun _ => ?_
        have hrest := ih (done ++ rest.take n) (rest.drop n)
        rwa [List.append_assoc, List.take_append_drop] at hrest
      | _ => exact .pure _ fun m hm => ⟨done, hm, fun h => by cases h⟩

/-- There are enough turns. -/
theorem writeLoop_turns (fd : Nat) : ∀ (turns : Nat) (bytes : Bytes) (m : Machine),
    m.answers.length < turns → writeLoop fd (turns + 1) bytes m = writeLoop fd turns bytes m := by
  intro turns
  induction turns with
  | zero => exact fun _ _ h => absurd h (Nat.not_lt_zero _)
  | succ turns ih =>
    intro bytes m hm
    refine (congrFun (writeLoop.eq_2 fd bytes (turns + 1)) m).trans
      (Eq.trans ?_ (congrFun (writeLoop.eq_2 fd bytes turns) m).symm)
    by_cases hempty : bytes = []
    · rw [if_pos hempty, if_pos hempty]
    · rw [if_neg hempty, if_neg hempty]
      obtain ⟨fs, answers⟩ := m
      cases answers with
      | nil => rfl
      | cons a answers =>
        have hlength : answers.length < turns := Nat.lt_of_succ_lt_succ hm
        cases a with
        | interrupted => exact ih bytes ⟨fs, answers⟩ hlength
        | wrote n => exact ih (bytes.drop n) ⟨fs.append fd (bytes.take n), answers⟩ hlength
        | _ => rfl

end Calls

/-! ## 5. Paths -/

section Paths

variable {path dir d : Bytes}

/-- The part before the last slash. -/
theorem parent_append {file : Bytes} (hdir : dir ≠ []) (hfile : slash ∉ file) :
    parent (dir ++ slash :: file) = some dir := by
  have hdrop : ((dir ++ slash :: file).reverse.dropWhile (· ≠ slash)) = slash :: dir.reverse := by
    rw [List.reverse_append, List.reverse_cons, List.append_assoc, List.singleton_append,
      List.dropWhile_append_of_pos]
    · rw [List.dropWhile_cons_of_neg (by simp)]
    · intro c hc
      have hne : c ≠ slash := by
        rintro rfl
        exact hfile (List.mem_reverse.mp hc)
      exact decide_eq_true hne
  rw [parent, hdrop, List.tail_cons, List.reverse_reverse]
  split
  · exact absurd rfl hdir
  · rfl

/-- And there is nothing else. -/
theorem eq_of_parent (h : parent path = some dir) :
    dir ≠ [] ∧ ∃ file, slash ∉ file ∧ path = dir ++ slash :: file := by
  have hdir : (path.reverse.dropWhile (· ≠ slash)).tail.reverse = dir ∧ dir ≠ [] := by
    rw [parent] at h
    split at h
    · cases h
    · rename_i d hd
      obtain rfl := Option.some.inj h
      exact ⟨rfl, hd⟩
  obtain ⟨hdir, hne⟩ := hdir
  refine ⟨hne, (path.reverse.takeWhile (· ≠ slash)).reverse, fun hmem => ?_, ?_⟩
  · have hchar := List.all_eq_true.mp List.all_takeWhile slash (List.mem_reverse.mp hmem)
    exact of_decide_eq_true hchar rfl
  generalize hrest : path.reverse.dropWhile (· ≠ slash) = rest at hdir
  cases rest with
  | nil => exact absurd hdir.symm hne
  | cons c rest =>
    have hc : c = slash := by
      have hhead := List.head?_dropWhile_not (· ≠ slash) path.reverse
      rw [hrest] at hhead
      simpa using hhead
    have hsplit : (path.reverse.takeWhile (· ≠ slash) ++
        path.reverse.dropWhile (· ≠ slash)).reverse = path := by
      rw [List.takeWhile_append_dropWhile, List.reverse_reverse]
    rw [hrest, hc, List.reverse_append, List.reverse_cons, List.append_assoc] at hsplit
    rw [← hdir]
    exact hsplit.symm

theorem parent_length (h : parent path = some dir) : dir.length < path.length := by
  obtain ⟨-, file, -, rfl⟩ := eq_of_parent h
  rw [List.length_append, List.length_cons]
  omega

theorem mem_above : d ∈ above path ↔ d ≠ [] ∧ ∃ file, path = d ++ slash :: file := by
  rw [above, List.mem_map]
  constructor
  · rintro ⟨i, hi, rfl⟩
    obtain ⟨hlt, hi⟩ := List.mem_filter.mp hi
    obtain ⟨hpos, hslash⟩ := of_decide_eq_true hi
    rw [List.mem_range] at hlt
    refine ⟨fun hnil => ?_, path.drop (i + 1), ?_⟩
    · rcases List.take_eq_nil_iff.mp hnil with h | h
      · exact hpos h
      · exact absurd hlt (by rw [h]; exact Nat.not_lt_zero i)
    · have hget : path[i] = slash := by
        rw [List.getElem?_eq_getElem hlt] at hslash
        exact Option.some.inj hslash
      rw [← hget, ← List.drop_eq_getElem_cons hlt, List.take_append_drop]
  · rintro ⟨hne, file, rfl⟩
    refine ⟨d.length, List.mem_filter.mpr ⟨?_, decide_eq_true ⟨?_, ?_⟩⟩, List.take_left⟩
    · rw [List.mem_range, List.length_append, List.length_cons]
      omega
    · exact fun h => hne (List.length_eq_zero_iff.mp h)
    · rw [List.getElem?_append_right le_rfl, Nat.sub_self]
      rfl

theorem above_subset (hd : d ∈ above path) : above d ⊆ above path := by
  intro e he
  obtain ⟨-, file, rfl⟩ := mem_above.mp hd
  obtain ⟨hne, rest, rfl⟩ := mem_above.mp he
  exact mem_above.mpr ⟨hne, rest ++ slash :: file, by rw [List.append_assoc]; rfl⟩

/-- A path is looked up through its directory and those above it. -/
theorem mem_above_iff (h : parent path = some dir) : d ∈ above path ↔ d ∈ ancestors dir := by
  obtain ⟨hdir, file, hfile, rfl⟩ := eq_of_parent h
  rw [ancestors, List.mem_append, List.mem_singleton]
  constructor
  · intro hd
    obtain ⟨hne, rest, heq⟩ := mem_above.mp hd
    rcases List.append_eq_append_iff.mp heq with ⟨between, rfl, hbetween⟩ | ⟨between, rfl, hbetween⟩
    · cases between with
      | nil => exact Or.inr (List.append_nil dir)
      | cons c between =>
        -- then the file name would contain a slash
        obtain ⟨-, rfl⟩ := List.cons.inj hbetween
        exact absurd (by simp) hfile
    · cases between with
      | nil => exact Or.inr (List.append_nil d).symm
      | cons c between =>
        obtain ⟨rfl, -⟩ := List.cons.inj hbetween
        exact Or.inl (mem_above.mpr ⟨hne, between, rfl⟩)
  · have hmem : dir ∈ above (dir ++ slash :: file) := mem_above.mpr ⟨hdir, file, rfl⟩
    rintro (hd | rfl)
    · exact above_subset hmem hd
    · exact hmem

theorem above_subset_ancestors (hd : d ∈ ancestors dir) : above d ⊆ ancestors dir := by
  intro e he
  rw [ancestors, List.mem_append, List.mem_singleton] at hd ⊢
  rcases hd with hd | rfl
  · exact Or.inl (above_subset hd he)
  · exact Or.inl he

theorem length_le_of_mem_ancestors (h : d ∈ ancestors dir) : d.length ≤ dir.length := by
  rw [ancestors, List.mem_append, List.mem_singleton] at h
  rcases h with h | rfl
  · obtain ⟨-, file, rfl⟩ := mem_above.mp h
    exact (List.prefix_append _ _).length_le
  · exact le_rfl

/-- None of them is in the directory. -/
theorem parent_ne_of_mem_ancestors (h : d ∈ ancestors dir) : parent d ≠ some dir := fun hparent =>
  absurd (parent_length hparent) (not_lt.mpr (length_le_of_mem_ancestors h))

end Paths

/-! ## 6. What a save does -/

/-- No temporary file has this path. -/
def Permanent (path : Bytes) : Prop :=
  ∀ dir suffix : Bytes, suffix.length = 6 → suffix.all alphanumeric →
    dir ++ ascii "/.pqchat_state_tmp_" ++ suffix ≠ path

/-- A temporary file is in the directory. -/
theorem parent_temporary {dir suffix : Bytes} (hdir : dir ≠ [])
    (hsuffix : suffix.all alphanumeric) :
    parent (dir ++ ascii "/.pqchat_state_tmp_" ++ suffix) = some dir := by
  have hfile : slash ∉ ascii ".pqchat_state_tmp_" ++ suffix := by
    rw [List.mem_append, not_or]
    refine ⟨by decide, fun h => ?_⟩
    have hslash := List.all_eq_true.mp hsuffix slash h
    revert hslash
    decide
  rw [List.append_assoc]
  exact parent_append hdir hfile

section Save

variable (path : Bytes) (fs₀ : FileSystem Bytes UInt8)

/-- The state file of another user, in the same directory. -/
structure Neighbour (q : Bytes) : Prop where
  ne : q ≠ path
  permanent : Permanent q
  parent : parent q = parent path

/-- All other files are as they were, and what the disk has of the state files of others.  In
other directories nothing has happened to what was there. -/
structure Frame (fs : FileSystem Bytes UInt8) : Prop where
  next : fs₀.next ≤ fs.next
  names : ∀ n, n ≠ path → fs₀.names n ≠ none → fs.names n = fs₀.names n
  data : ∀ i, i < fs₀.next → fs.data i = fs₀.data i ∧ fs.mode i = fs₀.mode i
  others : ∀ q contents, Neighbour path q → fs₀.Among q contents → fs.Among q contents
  elsewhere : ∀ d, parent d ≠ parent path → fs₀.recent d <:+ fs.recent d ∧
    (fs₀.names d ≠ none → fs.recent d = fs₀.recent d)

/-- The state file is as it was. -/
structure Before (fs : FileSystem Bytes UInt8) : Prop extends Frame path fs₀ fs where
  among : ∀ contents, fs₀.Among path contents → fs.Among path contents
  same : fs.names path = fs₀.names path

/-- The temporary file has these bytes. -/
structure Temporary (fd : Nat) (tmp written : Bytes) (fs : FileSystem Bytes UInt8) : Prop
    extends Before path fs₀ fs where
  ne : ∀ q, Permanent q → q ≠ tmp
  permanent : Permanent path
  inside : parent tmp = parent path
  free : fs₀.names tmp = none
  apart : ∀ q, q ≠ tmp → fs.Apart q fd
  new : fs₀.next ≤ fd
  leads : fs.names tmp = some (.file fd)
  written : fs.data fd = written
  permissions : fs.mode fd = 0o600

/-- The state file is the new one. -/
structure After (bytes : Bytes) (fs : FileSystem Bytes UInt8) : Prop
    extends Frame path fs₀ fs where
  among : ∀ contents, fs₀.Among path contents → fs.Among path (some bytes :: contents)
  leads : ∃ fd, fs.names path = some (.file fd) ∧ fs.data fd = bytes ∧ fs.mode fd = 0o600 ∧
    fs.clean fd = true

/-- The state file is the old one or the new one. -/
def Either (bytes : Bytes) (fs : FileSystem Bytes UInt8) : Prop :=
  Before path fs₀ fs ∨ After path fs₀ bytes fs

variable {path fs₀} {fs : FileSystem Bytes UInt8} {fd : Nat} {tmp written bytes : Bytes}

/-- Nothing has happened to a directory that is elsewhere. -/
theorem Frame.kept (h : Frame path fs₀ fs) {d : Bytes} (hd : parent d ≠ parent path)
    (hkept : fs₀.Kept d) : fs.Kept d := by
  have hsome : fs₀.names d ≠ none := by
    rw [hkept _ List.mem_cons_self]
    exact Option.some_ne_none _
  intro node hnode
  rw [(h.elsewhere d hd).2 hsome] at hnode
  exact hkept node hnode

theorem Before.read (h : Before path fs₀ fs) : fs.read path = fs₀.read path := by
  rw [FileSystem.read, FileSystem.read, h.same, FileSystem.content, FileSystem.content]
  cases hnode : Node.target (fs₀.names path) with
  | nothing => rfl
  | directory => rfl
  | file i =>
    have hi : i < fs₀.next := fs₀.fresh path i _ List.mem_cons_self hnode
    exact congrArg some (h.data i hi).1

theorem After.read (h : After path fs₀ bytes fs) : fs.read path = some bytes := by
  obtain ⟨fd, hnames, hdata, -⟩ := h.leads
  rw [FileSystem.read, hnames, ← hdata]
  rfl

theorem After.stable (h : After path fs₀ bytes fs) : fs.Stable (fs.names path) := by
  obtain ⟨fd, hnames, -, -, hclean⟩ := h.leads
  rw [hnames]
  exact hclean

theorem Before.refl (path : Bytes) (fs₀ : FileSystem Bytes UInt8) : Before path fs₀ fs₀ :=
  ⟨⟨le_rfl, fun _ _ _ => rfl, fun _ _ => ⟨rfl, rfl⟩, fun _ _ _ h => h,
    fun _ _ => ⟨List.suffix_rfl, fun _ => rfl⟩⟩, fun _ h => h, rfl⟩

/-! ### Steps -/

theorem Before.mkdir (h : Before path fs₀ fs) {dir : Bytes}
    (hdir : ∀ q, parent q = parent path → q ≠ dir) (hfree : fs.names dir = none) :
    Before path fs₀ (fs.mkdir dir) := by
  have hmissing : ∀ n, n ≠ path → fs₀.names n ≠ none → n ≠ dir := by
    rintro n hn hsome rfl
    exact hsome ((h.names n hn hsome).symm.trans hfree)
  refine ⟨⟨h.next, fun n hn hsome => ?_, h.data, fun q _ hq hamong => ?_, fun d hd => ?_⟩,
    fun _ hamong => ?_, ?_⟩
  · exact (Function.update_of_ne (hmissing n hn hsome) _ _).trans (h.names n hn hsome)
  · exact (h.others q _ hq hamong).mkdir (hdir q hq.parent)
  · obtain ⟨hsuffix, hsame⟩ := h.elsewhere d hd
    refine ⟨hsuffix.trans (FileSystem.recent_suffix_link d dir), fun hsome => ?_⟩
    have hne : d ≠ dir := hmissing d (fun h => hd (congrArg parent h)) hsome
    exact (FileSystem.recent_link_of_ne hne).trans (hsame hsome)
  · exact (h.among _ hamong).mkdir (hdir path rfl)
  · exact (Function.update_of_ne (hdir path rfl) _ _).trans h.same

/-- What has happened to the names of one directory is not seen elsewhere. -/
theorem Frame.elsewhere_of_ne {fs' : FileSystem Bytes UInt8} (h : Frame path fs₀ fs)
    (hne : ∀ d, parent d ≠ parent path → fs'.recent d = fs.recent d) (d : Bytes)
    (hd : parent d ≠ parent path) : fs₀.recent d <:+ fs'.recent d ∧
      (fs₀.names d ≠ none → fs'.recent d = fs₀.recent d) := by
  rw [hne d hd]
  exact h.elsewhere d hd

theorem Before.create (h : Before path fs₀ fs) (hpath : Permanent path)
    (htmp : ∀ q, Permanent q → q ≠ tmp) (hparent : parent tmp = parent path)
    (hfree : fs.names tmp = none) :
    Temporary path fs₀ fs.next tmp [] (fs.create tmp 0o600) := by
  have hne : path ≠ tmp := htmp path hpath
  have hnone : fs₀.names tmp = none := by
    by_contra hsome
    exact hsome ((h.names tmp hne.symm hsome).symm.trans hfree)
  refine ⟨⟨⟨?_, fun n hn hsome => ?_, fun i hi => ?_, fun q _ hq hamong => ?_,
    h.elsewhere_of_ne fun d hd => ?_⟩, fun _ hamong => (h.among _ hamong).create hne _, ?_⟩, htmp,
    hpath, hparent, hnone, fun q hq hmem => ?_, h.next, ?_, ?_, ?_⟩
  · exact h.next.trans (Nat.le_succ _)
  · have hne : n ≠ tmp := by
      rintro rfl
      exact hsome hnone
    exact (Function.update_of_ne hne _ _).trans (h.names n hn hsome)
  · have hne : i ≠ fs.next := (hi.trans_le h.next).ne
    obtain ⟨hdata, hmode⟩ := h.data i hi
    exact ⟨(Function.update_of_ne hne _ _).trans hdata,
      (Function.update_of_ne hne _ _).trans hmode⟩
  · exact (h.others q _ hq hamong).create (htmp q hq.permanent) _
  · have hne : d ≠ tmp := fun heq => hd ((congrArg parent heq).trans hparent)
    exact FileSystem.recent_create_of_ne hne _
  · exact (Function.update_of_ne hne _ _).trans h.same
  · rw [FileSystem.recent_create_of_ne hq] at hmem
    exact FileSystem.Apart.of_fresh fs q hmem
  · exact Function.update_self _ _ _
  · exact Function.update_self _ _ _
  · exact Function.update_self _ _ _

theorem Temporary.append (h : Temporary path fs₀ fd tmp written fs) (b : Bytes) :
    Temporary path fs₀ fd tmp (written ++ b) (fs.append fd b) := by
  have hapart : ∀ q, Permanent q → fs.Apart q fd := fun q hq => h.apart q (h.ne q hq)
  refine ⟨⟨⟨h.next, h.names, fun i hi => ?_, fun q _ hq hamong => ?_, h.elsewhere⟩,
    fun _ hamong => (h.among _ hamong).append (hapart path h.permanent) b, h.same⟩, h.ne,
    h.permanent, h.inside, h.free, h.apart, h.new, h.leads, ?_, h.permissions⟩
  · have hne : i ≠ fd := (hi.trans_le h.new).ne
    obtain ⟨hdata, hmode⟩ := h.data i hi
    exact ⟨(Function.update_of_ne hne _ _).trans hdata, hmode⟩
  · exact (h.others q _ hq hamong).append (hapart q hq.permanent) b
  · rw [← h.written]
    exact Function.update_self _ _ _

theorem Temporary.sync (h : Temporary path fs₀ fd tmp written fs) :
    Temporary path fs₀ fd tmp written (fs.sync fd) ∧ (fs.sync fd).clean fd = true :=
  ⟨⟨⟨⟨h.next, h.names, h.data, fun q _ hq hamong => (h.others q _ hq hamong).sync fd,
    h.elsewhere⟩, fun _ hamong => (h.among _ hamong).sync fd, h.same⟩, h.ne, h.permanent, h.inside,
    h.free, h.apart, h.new, h.leads, h.written, h.permissions⟩, Function.update_self _ _ _⟩

theorem Temporary.chmod (h : Temporary path fs₀ fd tmp written fs) :
    Temporary path fs₀ fd tmp written (fs.chmod fd 0o600) := by
  refine ⟨⟨⟨h.next, h.names, fun i hi => ?_, h.others, h.elsewhere⟩,
    fun _ hamong => (h.among _ hamong).chmod fd _, h.same⟩, h.ne, h.permanent, h.inside, h.free,
    h.apart, h.new, h.leads, h.written, Function.update_self _ _ _⟩
  have hne : i ≠ fd := (hi.trans_le h.new).ne
  obtain ⟨hdata, hmode⟩ := h.data i hi
  exact ⟨hdata, (Function.update_of_ne hne _ _).trans hmode⟩

theorem Temporary.ne_of_elsewhere (h : Temporary path fs₀ fd tmp written fs) {d : Bytes}
    (hd : parent d ≠ parent path) : d ≠ tmp := fun heq => hd (heq ▸ h.inside)

theorem Temporary.unlink (h : Temporary path fs₀ fd tmp written fs) :
    Before path fs₀ (fs.unlink tmp) := by
  have hne : path ≠ tmp := h.ne path h.permanent
  refine ⟨⟨h.next, fun n hn hsome => ?_, h.data, fun q _ hq hamong => ?_,
    h.elsewhere_of_ne fun d hd => FileSystem.recent_unlink_of_ne (h.ne_of_elsewhere hd)⟩,
    fun _ hamong => (h.among _ hamong).unlink hne, ?_⟩
  · have hne : n ≠ tmp := by
      rintro rfl
      exact hsome h.free
    exact (Function.update_of_ne hne _ _).trans (h.names n hn hsome)
  · exact (h.others q _ hq hamong).unlink (h.ne q hq.permanent)
  · exact (Function.update_of_ne hne _ _).trans h.same

/-- **The new file takes the place of the old one.** -/
theorem Temporary.rename (h : Temporary path fs₀ fd tmp written fs)
    (hclean : fs.clean fd = true) : After path fs₀ written (fs.rename tmp path) := by
  have hne : path ≠ tmp := h.ne path h.permanent
  have hread : fs.read tmp = some written := by
    rw [FileSystem.read, h.leads, ← h.written]
    rfl
  have hamong : ∀ contents, fs₀.Among path contents →
      (fs.rename tmp path).Among path (some written :: contents) := by
    intro contents hamong
    rw [← hread]
    exact (h.among _ hamong).rename hne (by rw [h.leads]; exact hclean)
  have hnames : ∀ n, n ≠ tmp → n ≠ path → (fs.rename tmp path).names n = fs.names n := by
    intro n htmp hpath
    exact (Function.update_of_ne htmp _ _).trans (Function.update_of_ne hpath _ _)
  refine ⟨⟨h.next, fun n hn hsome => ?_, h.data, fun q _ hq hq' => ?_,
    h.elsewhere_of_ne fun d hd => ?_⟩, hamong, fd, ?_, h.written, h.permissions, hclean⟩
  · have hne : n ≠ tmp := by
      rintro rfl
      exact hsome h.free
    exact (hnames n hne hn).trans (h.names n hn hsome)
  · exact ((h.others q _ hq hq').link hq.ne).unlink (h.ne q hq.permanent)
  · have hne : d ≠ path := fun heq => hd (congrArg parent heq)
    exact FileSystem.recent_rename_of_ne (h.ne_of_elsewhere hd) hne
  · rw [← h.leads]
    exact (Function.update_of_ne hne _ _).trans (Function.update_self _ _ _)

theorem After.syncDirectory (h : After path fs₀ bytes fs) {inside : Bytes → Bool}
    (hinside : ∀ d, inside d = true → parent d = parent path) :
    After path fs₀ bytes (fs.syncDirectory inside) := by
  refine ⟨⟨h.next, h.names, h.data,
    fun q _ hq hamong => (h.others q _ hq hamong).syncDirectory inside,
    h.elsewhere_of_ne fun d hd => ?_⟩,
    fun _ hamong => (h.among _ hamong).syncDirectory inside, h.leads⟩
  exact FileSystem.recent_syncDirectory fun h => hd (hinside d h)

/-! ### The functions -/

/-- The temporary file is on the disk. -/
structure Synced (path : Bytes) (fs₀ : FileSystem Bytes UInt8) (fd : Nat) (tmp bytes : Bytes)
    (fs : FileSystem Bytes UInt8) : Prop extends Temporary path fs₀ fd tmp bytes fs where
  clean : fs.clean fd = true

/-- The new state file is on the disk, under its name. -/
structure Committed (path : Bytes) (fs₀ : FileSystem Bytes UInt8) (bytes : Bytes)
    (fs : FileSystem Bytes UInt8) : Prop extends After path fs₀ bytes fs where
  committed : fs.Among path [some bytes]

/-- How a save may end: without an error only if a crash leaves the new file. -/
structure Ends (path : Bytes) (fs₀ : FileSystem Bytes UInt8) (bytes : Bytes)
    (r : Result Unit) (fs : FileSystem Bytes UInt8) : Prop where
  either : Either path fs₀ bytes fs
  ok : r = .ok () → Committed path fs₀ bytes fs

theorem ends_before (e : String) : Does (Either path fs₀ bytes)
    (Before path fs₀) (pure (.error e)) (Ends path fs₀ bytes) :=
  .pure _ fun _ h => ⟨Or.inl h, fun hr => by cases hr⟩

theorem ends_after (e : String) : Does (Either path fs₀ bytes)
    (After path fs₀ bytes) (pure (.error e)) (Ends path fs₀ bytes) :=
  .pure _ fun _ h => ⟨Or.inr h, fun hr => by cases hr⟩

theorem does_abandon (e : String) :
    Does (Either path fs₀ bytes) (Temporary path fs₀ fd tmp written)
      (abandon tmp e) (Ends path fs₀ bytes) := by
  refine .bind (R := fun _ m => Before path fs₀ m.fs) ?_ fun _ => ends_before e
  exact does_call (fun _ h => Or.inl h.toBefore) (fun _ h => h.unlink) fun _ h => h.toBefore

/-- The file is closed first. -/
theorem does_closeAbandon (e : String) :
    Does (Either path fs₀ bytes) (Temporary path fs₀ fd tmp written)
      (do let _ ← close; abandon tmp e) (Ends path fs₀ bytes) :=
  .bind (does_call (Q := fun _ => Temporary path fs₀ fd tmp written)
    (fun _ h => Or.inl h.toBefore) (fun _ h => h) fun _ h => h) fun _ => does_abandon e

theorem does_fsyncDirectory {dir : Bytes} (hdir : parent path = some dir) :
    Does (Either path fs₀ bytes) (After path fs₀ bytes) (fsyncDirectory dir)
      (Ends path fs₀ bytes) := by
  refine does_checked (T := After path fs₀ bytes) (F := After path fs₀ bytes)
    (fun _ h => Or.inr h) (fun _ h => h) (fun _ h => h) (ends_after _) ?_
  -- the names of the directory come to the disk here
  refine does_checked (T := Committed path fs₀ bytes) (F := After path fs₀ bytes)
    (fun _ h => Or.inr h) (fun fs h => ?_) (fun _ h => h) ?_ ?_
  · refine ⟨h.syncDirectory fun d hd => (of_decide_eq_true hd).trans hdir.symm, ?_⟩
    rw [← h.read]
    exact FileSystem.among_synced h.stable (decide_eq_true hdir)
  · exact .bind (does_call (Q := fun _ => After path fs₀ bytes) (fun _ h => Or.inr h)
      (fun _ h => h) fun _ h => h) fun _ => ends_after _
  · refine does_checked (T := Committed path fs₀ bytes)
      (F := After path fs₀ bytes) (fun _ h => Or.inr h.toAfter) (fun _ h => h)
      (fun _ h => h.toAfter) (ends_after _) ?_
    exact .pure _ fun _ h => ⟨Or.inr h.toAfter, fun _ => h⟩

/-- From where the file is written. -/
theorem does_commit {dir : Bytes} (hdir : parent path = some dir) :
    Does (Either path fs₀ bytes) (Temporary path fs₀ fd tmp bytes)
      (do
        if ¬ (← fsync fd) then do
          let _ ← close
          abandon tmp "failed syncing state file"
        else if ¬ (← close) then abandon tmp "failed closing state file"
        else if ¬ (← rename tmp path) then abandon tmp "failed committing state file"
        else fsyncDirectory dir) (Ends path fs₀ bytes) := by
  have hstop : ∀ fs, Synced path fs₀ fd tmp bytes fs →
      Either path fs₀ bytes fs := fun _ h => Or.inl h.toBefore
  refine does_checked (T := Synced path fs₀ fd tmp bytes)
    (F := Temporary path fs₀ fd tmp bytes) (fun _ h => Or.inl h.toBefore)
    (fun _ h => ⟨h.sync.1, h.sync.2⟩) (fun _ h => h) (does_closeAbandon _) ?_
  refine does_checked (T := Synced path fs₀ fd tmp bytes)
    (F := Temporary path fs₀ fd tmp bytes) hstop (fun _ h => h)
    (fun _ h => h.toTemporary) (does_abandon _) ?_
  exact does_checked (T := After path fs₀ bytes)
    (F := Temporary path fs₀ fd tmp bytes) hstop (fun _ h => h.rename h.clean)
    (fun _ h => h.toTemporary) (does_abandon _) (does_fsyncDirectory hdir)

/-- The bytes are written, or the file is given up. -/
theorem does_writeBytes {x y : Sys (Result Unit)}
    (hx : ∀ part, Does (Either path fs₀ bytes) (Temporary path fs₀ fd tmp part) x
      (Ends path fs₀ bytes))
    (hy : Does (Either path fs₀ bytes) (Temporary path fs₀ fd tmp bytes) y
      (Ends path fs₀ bytes)) :
    Does (Either path fs₀ bytes) (Temporary path fs₀ fd tmp [])
      (do if ¬ (← writeBytes fd bytes) then x else y) (Ends path fs₀ bytes) := by
  refine .bind (R := fun done m => ∃ all, Temporary path fs₀ fd tmp all m.fs ∧
    (done = true → all = bytes)) ?_ fun done => .ite (fun _ => ?_) fun hdone => ?_
  · refine .get_bind fun m => ?_
    have hloop := does_writeLoop (I := Either path fs₀ bytes)
      (W := Temporary path fs₀ fd tmp) fd (fun _ _ h => Or.inl h.toBefore)
      (fun _ b _ h => h.append b) (m.answers.length + 1) [] bytes
    exact hloop.mono (fun _ h => h.2) fun _ _ h => h
  · intro m h
    obtain ⟨part, h, -⟩ := h
    exact hx part m h
  · intro m h
    obtain ⟨all, h, hall⟩ := h
    rw [hall (not_not.mp hdone)] at h
    exact hy m h

/-- **`WriteAllFileAtomic`.**  Wherever it stops the state file is the old one or the new one. -/
theorem does_writeAllFileAtomic (hpath : Permanent path) (bytes : Bytes) :
    Does (Either path fs₀ bytes) (Before path fs₀)
      (writeAllFileAtomic path bytes) (Ends path fs₀ bytes) := by
  rw [writeAllFileAtomic]
  split
  · exact ends_before _
  rename_i dir hdir
  refine .bind (does_lstat (fun _ h => Or.inl h) path) fun existing => ?_
  split
  · exact ends_before _
  refine .bind (does_mkstemp (Q := fun opened fs => (opened = none → Before path fs₀ fs) ∧
    ∀ fd tmp, opened = some (fd, tmp) → Temporary path fs₀ fd tmp [] fs)
    (fun _ h => Or.inl h) (fun fs suffix h hlength hall hfree => ?_) fun fs h => ?_)
    fun opened => ?_
  · refine ⟨fun h => (by cases h), fun fd tmp hopened => ?_⟩
    obtain ⟨rfl, rfl⟩ := Prod.mk.inj (Option.some.inj hopened)
    refine h.create hpath (fun q hq => (hq dir suffix hlength hall).symm) ?_ hfree
    rw [hdir]
    exact parent_temporary (eq_of_parent hdir).1 hall
  · exact ⟨fun _ => h, fun _ _ h => by cases h⟩
  cases opened with
  | none => exact (ends_before _).mono (fun _ h => h.1 rfl) fun _ _ h => h
  | some file =>
    obtain ⟨fd, tmp⟩ := file
    refine Proc.Triple.mono (A := fun m => Temporary path fs₀ fd tmp [] m.fs) ?_
      (fun _ h => h.2 fd tmp rfl) fun _ _ h => h
    exact does_checked (T := Temporary path fs₀ fd tmp [])
      (F := Temporary path fs₀ fd tmp []) (fun _ h => Or.inl h.toBefore)
      (fun _ h => h.chmod) (fun _ h => h) (does_closeAbandon _)
      (does_writeBytes (fun _ => does_closeAbandon _) (does_commit hdir))

/-- Directories are made, and nothing happens to the state file. -/
theorem does_createMissing : ∀ {dirs : List Bytes},
    (∀ dir ∈ dirs, ∀ q, parent q = parent path → q ≠ dir) →
    Does (Before path fs₀) (Before path fs₀) (createMissing dirs)
      fun _ => Before path fs₀ := by
  intro dirs
  induction dirs with
  | nil => exact fun _ => .pure _ fun _ h => h
  | cons dir dirs ih =>
    intro h
    rw [List.forall_mem_cons] at h
    refine .get_bind fun m => ?_
    split
    · refine .ite (fun _ => ?_) fun _ => .pure _ fun _ hm => hm.2
      exact (ih h.2).mono (fun _ hm => hm.2) fun _ _ h => h
    rename_i hfree
    refine .bind (R := fun _ m => Before path fs₀ m.fs) ?_ fun _ =>
      .ite (fun _ => .pure _ fun _ h => h) fun _ => ih h.2
    -- the directory is still missing when it is made
    intro m' hm
    obtain ⟨rfl, hm⟩ := hm
    rw [Proc.wp, call, Proc.bind_apply, answer]
    cases m.answers with
    | nil => exact hm
    | cons a answers =>
      cases a with
      | ok => exact hm.mkdir h.1 hfree
      | _ => exact hm

theorem does_ensureStateDir {dir : Bytes} (hdir : parent path = some dir) :
    Does (Before path fs₀) (Before path fs₀) (ensureStateDir dir)
      fun _ => Before path fs₀ := by
  have hpure : ∀ r : Result Unit, Does (Before path fs₀) (Before path fs₀)
      (pure r) fun _ => Before path fs₀ := fun r => .pure _ fun _ h => h
  have hchmod : Does (Before path fs₀) (Before path fs₀)
      (do
        if ¬ (← chmod) then
          pure (Except.error "failed setting state directory permissions" : Result Unit)
        else pure (Except.ok ())) fun _ => Before path fs₀ :=
    does_checked (T := Before path fs₀) (F := Before path fs₀) (fun _ h => h)
      (fun _ h => h) (fun _ h => h) (hpure _) (hpure _)
  refine .bind (does_lstat (fun _ h => h) dir) fun existing => ?_
  split
  · exact hpure _
  · exact hpure _
  · exact hchmod
  · refine .bind (does_createMissing fun a ha q hparent hq => ?_) fun _ => .ite (fun _ => hpure _)
      fun _ => hchmod
    have hlong := parent_length (hparent.trans hdir)
    have hshort := length_le_of_mem_ancestors ha
    rw [hq] at hlong
    omega

/-- **`SaveLocalState`** on the file system. -/
theorem does_saveFile (hpath : Permanent path) (bytes : Bytes) :
    Does (Either path fs₀ bytes) (Before path fs₀)
      (saveFile path (.ok bytes)) (Ends path fs₀ bytes) := by
  rw [saveFile]
  split
  · exact ends_before _
  · rename_i dir hdir
    have hensure : Does (Either path fs₀ bytes) (Before path fs₀)
        (ensureStateDir dir) fun _ => Before path fs₀ := by
      intro m hm
      refine Proc.wp_mono (does_ensureStateDir hdir m hm) fun r m' h => ?_
      cases r with
      | error e => exact Or.inl h
      | ok r => exact h
    refine .bind hensure fun r => ?_
    split
    · exact ends_before _
    · exact does_writeAllFileAtomic hpath bytes

/-- If there is no payload, nothing is saved. -/
theorem does_saveFile_error (e : String) :
    Does (Before path fs₀) (Before path fs₀) (saveFile path (.error e))
      fun r fs => r ≠ .ok () ∧ Before path fs₀ fs := by
  have hpure : ∀ e, Does (Before path fs₀) (Before path fs₀) (pure (.error e))
      fun (r : Result Unit) fs => r ≠ .ok () ∧ Before path fs₀ fs := fun e =>
    .pure _ fun _ h => ⟨fun hr => (by cases hr), h⟩
  rw [saveFile]
  split
  · exact hpure _
  · rename_i dir hdir
    refine .bind (does_ensureStateDir hdir) fun r => ?_
    split
    · exact hpure _
    · exact hpure _

end Save

/-! ## 7. The path of the state file -/

theorem keeps_ne_slash {c : UInt8} (h : keeps c = true) : c ≠ slash := by
  rintro rfl
  revert h
  decide

/-- A file name is made of harmless characters. -/
theorem not_mem_sanitizeForFile (userId : Bytes) : slash ∉ sanitizeForFile userId := by
  rw [sanitizeForFile]
  split
  · decide
  · intro h
    obtain ⟨c, -, hc⟩ := List.mem_map.mp h
    split at hc
    · rename_i hkeeps
      exact keeps_ne_slash hkeeps hc
    · revert hc
      decide

theorem stateDirectory_ne_nil (vars : Variables) : stateDirectory vars ≠ [] := by
  have hnonempty : ∀ x : Option Bytes, nonempty x ≠ some [] := by
    intro x h
    match x with
    | none | some [] => cases h
    | some (c :: rest) => cases h
  rw [stateDirectory]
  split
  · rename_i dir hdir
    rintro rfl
    exact hnonempty _ hdir
  · exact List.append_ne_nil_of_right_ne_nil _ (by decide)
  · exact List.append_ne_nil_of_right_ne_nil _ (by decide)
  · decide

/-- **The state file is in the state directory**, whatever the user is called. -/
theorem parent_defaultLocalStatePath (vars : Variables) (userId : Bytes) :
    parent (defaultLocalStatePath vars userId) = some (stateDirectory vars) := by
  have hfile : slash ∉ sanitizeForFile userId ++ ascii ".bin" := by
    rw [List.mem_append, not_or]
    exact ⟨not_mem_sanitizeForFile userId, by decide⟩
  have hpath : defaultLocalStatePath vars userId =
      stateDirectory vars ++ slash :: (sanitizeForFile userId ++ ascii ".bin") := by
    rw [defaultLocalStatePath, List.append_assoc]
    rfl
  rw [hpath]
  exact parent_append (stateDirectory_ne_nil vars) hfile

/-- Its name ends in `.bin`, and the name of a temporary file does not. -/
theorem permanent_defaultLocalStatePath (vars : Variables) (userId : Bytes) :
    Permanent (defaultLocalStatePath vars userId) := by
  intro dir suffix hlength hall h
  have hlast : (ascii ".bin").reverse <+: suffix.reverse := by
    have hsuffix : ascii ".bin" <:+ dir ++ ascii "/.pqchat_state_tmp_" ++ suffix := by
      rw [h, defaultLocalStatePath]
      exact List.suffix_append _ _
    refine List.reverse_prefix.mpr ?_
    exact List.suffix_of_suffix_length_le hsuffix (List.suffix_append _ _)
      (by rw [hlength]; decide)
  have hdot : (46 : UInt8) ∈ suffix := by
    refine List.mem_reverse.mp (hlast.subset ?_)
    decide
  have hchar := List.all_eq_true.mp hall 46 hdot
  revert hchar
  decide

/-! ## 8. Runs -/

/-- A save that has been tried, and whether it returned without an error. -/
structure Attempt where
  bytes : Bytes
  returned : Bool

/-- What the state file may hold after some attempts, newest first: what was there before the
first of them, unless one has returned since. -/
def candidates (before : Option Bytes) : List Attempt → List (Option Bytes)
  | [] => [before]
  | attempt :: attempts =>
    if attempt.returned then [some attempt.bytes]
    else some attempt.bytes :: candidates before attempts

/-- The runs of the processes of the users of a computer: saves, each up to where it returns or
the process stops, and crashes of the computer.  Users whose names come to the same file share
it. -/
inductive Saves (vars : Variables) (fs₀ : FileSystem Bytes UInt8) :
    (Bytes → List Attempt) → FileSystem Bytes UInt8 → Prop
  | start : Saves vars fs₀ (fun _ => []) fs₀
  | save {attempts : Bytes → List Attempt} {fs : FileSystem Bytes UInt8} (userId bytes : Bytes)
    (answers : List Answer) {r : Except String (Result Unit)} {m : Machine}
    (hsave : saveFile (defaultLocalStatePath vars userId) (.ok bytes) ⟨fs, answers⟩ = (r, m))
    (h : Saves vars fs₀ attempts fs) :
    Saves vars fs₀ (Function.update attempts (defaultLocalStatePath vars userId)
      (⟨bytes, decide (r.toOption = some (.ok ()))⟩ ::
        attempts (defaultLocalStatePath vars userId))) m.fs
  | crash {attempts : Bytes → List Attempt} {fs fs' : FileSystem Bytes UInt8}
    (hcrash : fs.Crash above fs') (h : Saves vars fs₀ attempts fs) : Saves vars fs₀ attempts fs'

section Runs

variable {vars : Variables} {fs₀ fs fs' : FileSystem Bytes UInt8} {attempts : Bytes → List Attempt}

theorem Saves.saved (userId bytes : Bytes) (answers : List Answer)
    (h : Saves vars fs₀ attempts fs) :
    Saves vars fs₀ (Function.update attempts (defaultLocalStatePath vars userId)
      (⟨bytes, decide ((saveFile (defaultLocalStatePath vars userId) (.ok bytes)
          ⟨fs, answers⟩).1.toOption = some (.ok ()))⟩ ::
        attempts (defaultLocalStatePath vars userId)))
      (saveFile (defaultLocalStatePath vars userId) (.ok bytes) ⟨fs, answers⟩).2.fs :=
  h.save userId bytes answers Prod.mk.eta.symm

theorem saveFile_fst {path bytes : Bytes} {answers : List Answer} (hpath : Permanent path)
    {r : Except String (Result Unit)} {m : Machine}
    (hsave : saveFile path (.ok bytes) ⟨fs, answers⟩ = (r, m)) :
    Either path fs bytes m.fs ∧ (r.toOption = some (.ok ()) → Committed path fs bytes m.fs) := by
  have hdoes := does_saveFile hpath bytes ⟨fs, answers⟩ (Before.refl path fs)
  rw [Proc.wp, hsave] at hdoes
  cases r with
  | error e => exact ⟨hdoes, fun hr => by cases hr⟩
  | ok r => exact ⟨hdoes.either, fun hr => hdoes.ok (Option.some.inj hr)⟩

theorem Either.frame {path bytes : Bytes} (h : Either path fs₀ bytes fs) : Frame path fs₀ fs :=
  h.elim (·.toFrame) (·.toFrame)

theorem Either.among {path bytes : Bytes} {contents : List (Option Bytes)}
    (h : Either path fs₀ bytes fs) (hamong : fs₀.Among path contents) :
    fs.Among path (some bytes :: contents) := by
  rcases h with h | h
  · exact (h.among _ hamong).mono (List.subset_cons_self _ _)
  · exact h.among _ hamong

/-- The directories are there to stay. -/
theorem Saves.kept (hdirs : ∀ d ∈ ancestors (stateDirectory vars), fs₀.Kept d)
    (h : Saves vars fs₀ attempts fs) : ∀ d ∈ ancestors (stateDirectory vars), fs.Kept d := by
  induction h with
  | start => exact hdirs
  | @save attempts fs owner bytes answers r m hsave h ih =>
    intro d hd
    have hframe := (saveFile_fst (permanent_defaultLocalStatePath vars owner) hsave).1.frame
    refine hframe.kept ?_ (ih d hd)
    rw [parent_defaultLocalStatePath]
    exact parent_ne_of_mem_ancestors hd
  | crash hcrash h ih =>
    exact fun d hd => hcrash.kept (fun e he => ih e (above_subset_ancestors hd he)) (ih d hd)

/-- **What a crash leaves of a state file is a save as a whole, and none before the last that has
returned**, if the names of the state directory and of those above it are on the disk. -/
theorem Saves.leaves (before : Bytes → Option Bytes)
    (hdirs : ∀ d ∈ ancestors (stateDirectory vars), fs₀.Kept d)
    (hstart : ∀ userId, fs₀.Among (defaultLocalStatePath vars userId)
      [before (defaultLocalStatePath vars userId)])
    (h : Saves vars fs₀ attempts fs) (userId : Bytes) :
    fs.Among (defaultLocalStatePath vars userId) (candidates
      (before (defaultLocalStatePath vars userId))
      (attempts (defaultLocalStatePath vars userId))) := by
  induction h generalizing userId with
  | start => exact hstart userId
  | @save attempts fs owner bytes answers r m hsave h ih =>
    obtain ⟨heither, hcommitted⟩ :=
      saveFile_fst (permanent_defaultLocalStatePath vars owner) hsave
    by_cases hsame : defaultLocalStatePath vars userId = defaultLocalStatePath vars owner
    · rw [hsame, Function.update_self, candidates]
      dsimp only
      split
      · rename_i hreturned
        exact (hcommitted (of_decide_eq_true hreturned)).committed
      · exact heither.among (ih owner)
    · rw [Function.update_of_ne hsame]
      refine heither.frame.others _ _ ⟨hsame, permanent_defaultLocalStatePath vars userId, ?_⟩
        (ih userId)
      rw [parent_defaultLocalStatePath, parent_defaultLocalStatePath]
  | @crash attempts fs fs' hcrash h ih =>
    have hheld : fs.Held above (defaultLocalStatePath vars userId) := fun d hd =>
      h.kept hdirs d ((mem_above_iff (parent_defaultLocalStatePath vars userId)).mp hd)
    obtain ⟨hread, hamong⟩ := (ih userId).crash hheld hcrash
    exact hamong.mono (List.cons_subset.mpr ⟨hread, List.nil_subset _⟩)

/-- **If one of them may be missing on the disk, a crash may lose the file**, also after a save
that has returned: `EnsureStateDir` does not sync the directory in which it makes another. -/
theorem saveFile_lost {path dir d bytes : Bytes} (hpath : Permanent path)
    (hdir : parent path = some dir) (hd : d ∈ ancestors dir) (hmissing : none ∈ fs.recent d)
    {answers : List Answer} {r : Except String (Result Unit)} {m : Machine}
    (hsave : saveFile path (.ok bytes) ⟨fs, answers⟩ = (r, m)) :
    ∃ fs', m.fs.Crash above fs' ∧ fs'.read path = none := by
  have hframe := (saveFile_fst hpath hsave).1.frame
  have hsuffix := (hframe.elsewhere d (by rw [hdir]; exact parent_ne_of_mem_ancestors hd)).1
  exact FileSystem.exists_crash_lost ((mem_above_iff hdir).mpr hd) (hsuffix.subset hmissing)

/-! ### What is restored -/

theorem mem_candidates {old : Option Bytes} {tried : List Attempt} {content : Option Bytes}
    (h : content ∈ candidates old tried) :
    (content = old ∧ ∀ attempt ∈ tried, attempt.returned = false) ∨
    ∃ newer attempt older, tried = newer ++ attempt :: older ∧ content = some attempt.bytes ∧
      ∀ a ∈ newer, a.returned = false := by
  induction tried with
  | nil =>
    obtain rfl := List.mem_singleton.mp h
    exact Or.inl ⟨rfl, fun _ h => absurd h List.not_mem_nil⟩
  | cons attempt tried ih =>
    have hnewest : content = some attempt.bytes → (content = old ∧
        ∀ a ∈ attempt :: tried, a.returned = false) ∨
        ∃ newer a older, attempt :: tried = newer ++ a :: older ∧ content = some a.bytes ∧
          ∀ b ∈ newer, b.returned = false := fun h =>
      Or.inr ⟨[], attempt, tried, rfl, h, fun _ h => absurd h List.not_mem_nil⟩
    rw [candidates] at h
    split at h
    · exact hnewest (List.mem_singleton.mp h)
    · rename_i hreturned
      rw [Bool.not_eq_true] at hreturned
      rcases List.mem_cons.mp h with h | h
      · exact hnewest h
      · refine (ih h).imp (fun h => ⟨h.1, List.forall_mem_cons.mpr ⟨hreturned, h.2⟩⟩) fun h => ?_
        obtain ⟨newer, a, older, htried, hcontent, hnewer⟩ := h
        exact ⟨attempt :: newer, a, older, congrArg (attempt :: ·) htried, hcontent,
          List.forall_mem_cons.mpr ⟨hreturned, hnewer⟩⟩

open StateFile in
/-- A file that `SaveLocalState` has written for a client. -/
structure FileOf (p : Provider) (env' : Environment) (cl : Client Bytes) (file : Bytes) : Prop where
  restorable : Restorable p cl
  countable : Countable cl
  written : ∃ (env : Environment) (order : Iteration), env'.passphrase = env.passphrase ∧
    order.Of cl ∧ (∀ writer, writeLocalState p cl order = .ok writer → writer.Small) ∧
    StateFile.saveLocalState p env cl order = .ok file
  size : file.length ≤ kMaxStateFileBytes

open StateFile in
/-- A client that is restored as it was. -/
structure Sound (cl : Client Bytes) : Prop where
  limits : WithinLimits cl
  paired : KeysPaired cl
  sessions : Settled cl.seenInitialSessions
  transcripts : Settled cl.seenInitialTranscripts

variable {p : StateFile.Provider} {env' : StateFile.Environment}

theorem FileOf.load (hp : p.OpensSeals) {cl : Client Bytes} {file : Bytes}
    (h : FileOf p env' cl file) (hsound : Sound cl) :
    StateFile.loadLocalState p env' cl.userId (some file) = .ok cl := by
  obtain ⟨env, order, hpass, horder, hsmall, hsave⟩ := h.written
  exact StateFile.loadLocalState_saveLocalState hp hpass h.restorable horder hsound.limits
    hsound.paired hsound.sessions hsound.transcripts hsmall hsave h.size

/-- What an access to the file `content` for reading comes to: `x` of the file, or an error, and
that there is no file only if there is none or it cannot be opened. -/
def Accessed {α : Type} (content : Option Bytes) (x : Bytes → Result α) (r : Result α) : Prop :=
  (∃ e, r = .error e ∧ (content = none → e = "state file missing")) ∨
    ∃ file, content = some file ∧ r = x file

theorem does_readAllFile (path : Bytes) (fs : FileSystem Bytes UInt8) :
    Does (· = fs) (· = fs) (readAllFile path) fun r fs' =>
      fs' = fs ∧ Accessed (fs.read path) (fun file => StateFile.readAllFile (some file)) r := by
  refine .get_bind fun m => .bind (R := fun _ m' => m = ⟨fs, m.answers⟩ ∧ m'.fs = fs) ?_
    fun opened => ?_
  · exact (does_call (P := fun fs' => m = ⟨fs, m.answers⟩ ∧ fs' = fs) (fun _ h => h.2)
      (Q := fun _ fs' => m = ⟨fs, m.answers⟩ ∧ fs' = fs) (fun _ h => h) fun _ h => h).mono
      (fun m' h => ⟨by rw [h.1, ← h.2], h.2⟩) fun _ _ h => h
  intro m' hm
  obtain ⟨hm, rfl⟩ := hm
  have hread : m.fs.read path = m'.fs.read path := by rw [hm]
  rw [hread]
  have herror : ∀ e, m'.fs.read path ≠ none → Does (· = m'.fs) (· = m'.fs)
      (pure (.error e)) fun (r : Result Bytes) fs' => fs' = m'.fs ∧
        Accessed (m'.fs.read path) (fun file => StateFile.readAllFile (some file)) r :=
    fun e hsome => .pure _ fun _ h => ⟨h, Or.inl ⟨e, rfl, fun h => absurd h hsome⟩⟩
  generalize hfound : (if opened = true then m'.fs.read path else none) = found
  cases found with
  | none => exact ⟨rfl, Or.inl ⟨_, rfl, fun _ => rfl⟩⟩
  | some data =>
    have hdata : m'.fs.read path = some data := by
      split at hfound
      · exact hfound
      · cases hfound
    have hsome : m'.fs.read path ≠ none := by rw [hdata]; exact Option.some_ne_none _
    have hok : StateFile.readAllFile (some data) =
        if data.length > StateFile.kMaxStateFileBytes then .error "state file too large"
        else .ok data := rfl
    refine does_checked (T := (· = m'.fs)) (F := (· = m'.fs)) (fun _ h => h) (fun _ h => h)
      (fun _ h => h) (herror _ hsome) (.ite (fun _ => herror _ hsome) fun hsize => ?_) m' rfl
    refine .bind (does_call (Q := fun _ => (· = m'.fs)) (fun _ h => h) (fun _ h => h) fun _ h => h)
      fun _ => .ite (fun _ => herror _ hsome) fun _ => .pure _ fun _ h => ⟨h, Or.inr ?_⟩
    exact ⟨data, hdata, (hok.trans (if_neg hsize)).symm⟩

/-- What `LoadLocalState` comes to. -/
theorem loadFile_cases {userId path : Bytes} {answers : List Answer} {r : Result (Client Bytes)}
    {m : Machine} (h : loadFile p env' userId path ⟨fs, answers⟩ = (.ok r, m)) :
    m.fs = fs ∧ Accessed (fs.read path)
      (fun file => StateFile.loadLocalState p env' userId (some file)) r := by
  obtain ⟨read, m₁, hread, h⟩ := Proc.bind_eq_ok_iff.mp h
  have hdoes := does_readAllFile path fs ⟨fs, answers⟩ rfl
  rw [Proc.wp, hread] at hdoes
  obtain ⟨hfs, haccessed⟩ := hdoes
  cases read with
  | error e =>
    obtain ⟨hr, rfl⟩ := Prod.mk.inj h
    obtain rfl := Except.ok.inj hr
    refine ⟨hfs, ?_⟩
    rcases haccessed with ⟨e', he, hmissing⟩ | ⟨file, hfile, he⟩
    · exact Or.inl ⟨e, rfl, by rw [Except.error.inj he]; exact hmissing⟩
    · refine Or.inr ⟨file, hfile, ?_⟩
      have hbind : StateFile.readAllFile (some file) = .error e := he.symm
      dsimp only [StateFile.loadLocalState]
      rw [hbind]
      rfl
  | ok data =>
    obtain ⟨hr, rfl⟩ := Prod.mk.inj h
    refine ⟨hfs, ?_⟩
    rcases haccessed with ⟨e', he, -⟩ | ⟨file, hfile, he⟩
    · cases he
    · have hdata : data = file := by
        dsimp only [StateFile.readAllFile] at he
        split at he
        · cases he
        · exact Except.ok.inj he
      exact Or.inr ⟨file, hfile, by rw [← hdata]; exact (Except.ok.inj hr).symm⟩

/-- If every call succeeds, it is loaded. -/
theorem loadFile_complete (userId path : Bytes) (fs : FileSystem Bytes UInt8)
    (answers : List Answer) :
    (loadFile p env' userId path ⟨fs, .ok :: .ok :: .ok :: answers⟩).1 =
      .ok (StateFile.loadLocalState p env' userId (fs.read path)) := by
  match hread : fs.read path with
  | none =>
    have hmissing : readAllFile path ⟨fs, .ok :: .ok :: .ok :: answers⟩ =
        (.ok (.error "state file missing"), ⟨fs, .ok :: .ok :: answers⟩) := by
      rw [readAllFile, Proc.get_bind_apply, hread]
      rfl
    rw [loadFile, Proc.bind_ok hmissing]
    rfl
  | some data =>
    by_cases hsize : data.length > StateFile.kMaxStateFileBytes
    · have hlarge : readAllFile path ⟨fs, .ok :: .ok :: .ok :: answers⟩ =
          (.ok (.error "state file too large"), ⟨fs, .ok :: answers⟩) := by
        rw [readAllFile, Proc.get_bind_apply, hread]
        exact congrFun (if_pos hsize) _
      rw [loadFile, Proc.bind_ok hlarge, StateFile.loadLocalState, StateFile.readAllFile,
        if_pos hsize]
      rfl
    · have hdata : readAllFile path ⟨fs, .ok :: .ok :: .ok :: answers⟩ =
          (.ok (.ok data), ⟨fs, answers⟩) := by
        rw [readAllFile, Proc.get_bind_apply, hread]
        exact congrFun (if_neg hsize) _
      rw [loadFile, Proc.bind_ok hdata]
      rfl

/-! ### The disk of `World` -/

/-- The state file holds what the model of the client has for it. -/
inductive Holds (p : StateFile.Provider) (env' : StateFile.Environment) :
    Option Bytes → Option (Client Bytes) → Prop
  | missing : Holds p env' none none
  | file {cl : Client Bytes} {file : Bytes} (h : FileOf p env' cl file) :
    Holds p env' (some file) (some cl)

section Refinement

variable {S : Type} {w : World Bytes S}

/-- The next access to the state file comes to this. -/
def answering (outcome : DiskOutcome) (w : World Bytes S) : World Bytes S :=
  { w with diskOutcome := Function.update w.diskOutcome w.diskUses outcome }

def result : DiskOutcome → Except String Unit
  | .ok => .ok ()
  | .failed e | .unsynced e => .error e

/-- What is there after a write. -/
def written {α : Type} (old new : α) : DiskOutcome → α
  | .failed _ => old
  | .ok | .unsynced _ => new

theorem saveLocalState_answering
    (hpeers : w.client.trustedPeerIdentities.keys.card ≤ kMaxPersistedPeers)
    (hsessions : w.client.sessionsByPeer.keys.card ≤ kMaxPersistedSessions)
    (outcome : DiskOutcome) :
    (saveLocalState (answering outcome w)).1 = result outcome ∧
      (saveLocalState (answering outcome w)).2.disk = written w.disk (some w.client) outcome := by
  have houtcome : (answering outcome w).diskOutcome (answering outcome w).diskUses = outcome :=
    Function.update_self _ _ _
  have hpeers' : (answering outcome w).client.trustedPeerIdentities.keys.card ≤
    kMaxPersistedPeers := hpeers
  have hsessions' : (answering outcome w).client.sessionsByPeer.keys.card ≤
    kMaxPersistedSessions := hsessions
  rw [saveLocalState, Proc.get_bind_apply, Proc.require_pos hpeers', Proc.require_pos hsessions',
    houtcome]
  cases outcome with
  | ok => exact ⟨rfl, rfl⟩
  | failed e => exact ⟨rfl, rfl⟩
  | unsynced e => exact ⟨rfl, rfl⟩

/-- **A save on the file system is a save of the model**: some `DiskOutcome` gives its result, and
what is on the disk afterwards. -/
theorem saveFile_refines {path : Bytes} (hpath : Permanent path)
    (hholds : Holds p env' (fs.read path) w.disk)
    (hpeers : w.client.trustedPeerIdentities.keys.card ≤ kMaxPersistedPeers)
    (hsessions : w.client.sessionsByPeer.keys.card ≤ kMaxPersistedSessions)
    {payload : Result Bytes} (hpayload : ∀ file, payload = .ok file → FileOf p env' w.client file)
    {answers : List Answer} {r : Result Unit} {m : Machine}
    (hsave : saveFile path payload ⟨fs, answers⟩ = (.ok r, m)) :
    ∃ outcome, (saveLocalState (answering outcome w)).1 = r ∧
      Holds p env' (m.fs.read path) (saveLocalState (answering outcome w)).2.disk := by
  have hanswering := saveLocalState_answering hpeers hsessions
  suffices h : ∃ outcome, r = result outcome ∧
      Holds p env' (m.fs.read path) (written w.disk (some w.client) outcome) by
    obtain ⟨outcome, hr, hdisk⟩ := h
    rw [← (hanswering outcome).2] at hdisk
    exact ⟨outcome, (hanswering outcome).1.trans hr.symm, hdisk⟩
  -- if the old file is still there
  have hbefore : ∀ e, m.fs.read path = fs.read path →
      Holds p env' (m.fs.read path) (written w.disk (some w.client) (.failed e)) := by
    intro e hread
    rw [hread]
    exact hholds
  cases payload with
  | error e =>
    have hdoes := does_saveFile_error e ⟨fs, answers⟩ (Before.refl path fs)
    rw [Proc.wp, hsave] at hdoes
    obtain ⟨hr, hm⟩ := hdoes
    cases r with
    | error e => exact ⟨.failed e, rfl, hbefore e hm.read⟩
    | ok _ => exact absurd rfl hr
  | ok file =>
    obtain ⟨heither, hcommitted⟩ := saveFile_fst hpath hsave
    have hfile := hpayload file rfl
    cases r with
    | ok _ =>
      refine ⟨.ok, rfl, ?_⟩
      rw [(hcommitted rfl).read]
      exact .file hfile
    | error e =>
      rcases heither with h | h
      · exact ⟨.failed e, rfl, hbefore e h.read⟩
      · refine ⟨.unsynced e, rfl, ?_⟩
        rw [h.read]
        exact .file hfile

theorem loadLocalState_missing (hdisk : w.disk = none) :
    loadLocalState w = (.error "state file missing", w) := by
  rw [loadLocalState, Proc.get_bind_apply, hdisk]
  rfl

theorem loadLocalState_failed {saved : Client Bytes} (hdisk : w.disk = some saved) (e : String) :
    (loadLocalState (answering (.failed e) w)).1 = .error e := by
  have houtcome : (answering (.failed e) w).diskOutcome (answering (.failed e) w).diskUses =
    .failed e := Function.update_self _ _ _
  have hdisk' : (answering (.failed e) w).disk = some saved := hdisk
  rw [loadLocalState, Proc.get_bind_apply, hdisk']
  dsimp only
  rw [Proc.modify_bind_apply, houtcome]
  rfl

theorem loadLocalState_ok {saved : Client Bytes} (hdisk : w.disk = some saved) :
    loadLocalState (answering .ok w) =
      restoreState saved { answering .ok w with diskUses := w.diskUses + 1 } := by
  have houtcome : (answering .ok w).diskOutcome (answering .ok w).diskUses = .ok :=
    Function.update_self _ _ _
  have hdisk' : (answering .ok w).disk = some saved := hdisk
  rw [loadLocalState, Proc.get_bind_apply, hdisk']
  dsimp only
  rw [Proc.modify_bind_apply, houtcome]
  rfl

/-- **A load from the file system is a load of the model**, of the same client. -/
theorem loadFile_refines (hp : p.OpensSeals) {path : Bytes}
    (hholds : Holds p env' (fs.read path) w.disk) {answers : List Answer}
    {r : Result (Client Bytes)} {m : Machine}
    (hload : loadFile p env' w.client.userId path ⟨fs, answers⟩ = (.ok r, m)) :
    m.fs = fs ∧ ∃ outcome, (loadLocalState (answering outcome w)).1 = r.map (fun _ => ()) ∧
      ∀ cl, r = .ok cl → (loadLocalState (answering outcome w)).2.client = cl := by
  obtain ⟨hfs, haccessed⟩ := loadFile_cases hload
  refine ⟨hfs, ?_⟩
  generalize hcontent : fs.read path = content at hholds haccessed
  generalize hdisk : w.disk = disk at hholds
  cases hholds with
  | missing =>
    rcases haccessed with ⟨e, rfl, he⟩ | ⟨file, hfile, -⟩
    · obtain rfl := he rfl
      have hmissing : (answering .ok w).disk = none := hdisk
      refine ⟨.ok, ?_, fun _ h => by cases h⟩
      rw [loadLocalState_missing hmissing]
      rfl
    · cases hfile
  | @file cl file h =>
    rcases haccessed with ⟨e, rfl, -⟩ | ⟨file', hfile, hr⟩
    · exact ⟨.failed e, loadLocalState_failed hdisk e, fun _ h => by cases h⟩
    · obtain rfl := Option.some.inj hfile
      obtain ⟨env, order, hpass, horder, hsmall, hsave⟩ := h.written
      have hrestore := StateFile.loadLocalState_file hp hpass h.restorable horder h.countable hsmall
        hsave h.size { answering .ok w with diskUses := w.diskUses + 1 }
      refine ⟨.ok, ?_⟩
      rw [loadLocalState_ok hdisk, hr.trans hrestore, Codec.checked]
      rcases restoreState_cases cl { answering .ok w with diskUses := w.diskUses + 1 } with
        hrun | ⟨e, hrun⟩
      · rw [hrun]
        exact ⟨rfl, fun loaded hloaded => Except.ok.inj hloaded⟩
      · rw [hrun]
        exact ⟨rfl, fun loaded hloaded => by cases hloaded⟩

end Refinement

/-- The saves that have been tried are of clients of their users. -/
def OfClients (p : StateFile.Provider) (env' : StateFile.Environment) (userId : Bytes)
    (tried : List Attempt) : Prop :=
  ∀ attempt ∈ tried, ∃ cl, cl.userId = userId ∧ FileOf p env' cl attempt.bytes ∧ Sound cl

/-- **What `LoadLocalState` restores**, whatever has happened: the client of a save as a whole, and
no later save has returned; or nothing was there and no save has returned. -/
theorem Saves.restores (hp : p.OpensSeals)
    (hdirs : ∀ d ∈ ancestors (stateDirectory vars), fs₀.Kept d)
    (hstart : ∀ userId, fs₀.Among (defaultLocalStatePath vars userId) [none])
    (h : Saves vars fs₀ attempts fs)
    {userId : Bytes}
    (hclients : OfClients p env' userId (attempts (defaultLocalStatePath vars userId)))
    (answers : List Answer) :
    ∃ r, (loadFile p env' userId (defaultLocalStatePath vars userId)
        ⟨fs, .ok :: .ok :: .ok :: answers⟩).1 = .ok r ∧
      ((r = .error "state file missing" ∧
          ∀ a ∈ attempts (defaultLocalStatePath vars userId), a.returned = false) ∨
        ∃ newer attempt older cl, attempts (defaultLocalStatePath vars userId) =
            newer ++ attempt :: older ∧ (∀ a ∈ newer, a.returned = false) ∧
          FileOf p env' cl attempt.bytes ∧ r = .ok cl) := by
  refine ⟨_, loadFile_complete _ _ fs answers, ?_⟩
  have hamong := Saves.leaves (fun _ => none) hdirs hstart h userId
  rcases mem_candidates hamong.read with ⟨hread, hfailed⟩ | ⟨newer, a, older, htried, hread, hnewer⟩
  · rw [hread]
    exact Or.inl ⟨rfl, hfailed⟩
  · rw [hread]
    obtain ⟨cl, rfl, hfile, hsound⟩ := hclients a (htried ▸ by simp)
    exact Or.inr ⟨newer, a, older, cl, htried, hnewer, hfile, hfile.load hp hsound⟩

end Runs

/-! ## 9. An instance -/

section Instance

open StateFile

/-- A disk with nothing on it. -/
def blankDisk : FileSystem Bytes UInt8 where
  names _ := none
  older _ := []
  data _ := []
  clean _ := false
  mode _ := 0
  next := 0
  fresh _ _ _ hnode hi := by
    rw [List.mem_singleton.mp hnode] at hi
    cases hi

/-- One with a state directory. -/
def readyDisk : FileSystem Bytes UInt8 :=
  { blankDisk with
    names := fun path => if path = ascii "/s" then some .directory else none
    fresh := by
      intro _ _ _ hnode hi
      rw [List.mem_singleton.mp hnode] at hi
      split at hi <;> cases hi }

def someVariables : Variables where
  stateDir := some (ascii "/s")
  xdgStateHome := none
  home := none

theorem readyDisk_kept : ∀ d ∈ ancestors (stateDirectory someVariables), readyDisk.Kept d := by
  have hdirs : ancestors (stateDirectory someVariables) = [ascii "/s"] := by decide
  rw [hdirs]
  intro d hd node hnode
  obtain rfl := List.mem_singleton.mp hd
  exact List.mem_singleton.mp hnode

theorem readyDisk_among (userId : Bytes) :
    readyDisk.Among (defaultLocalStatePath someVariables userId) [none] := by
  have hlong := parent_length (parent_defaultLocalStatePath someVariables userId)
  have hne : defaultLocalStatePath someVariables userId ≠ ascii "/s" := fun h => by
    rw [h] at hlong
    exact absurd hlong (by decide)
  intro node hnode
  rw [List.mem_singleton.mp hnode, readyDisk]
  dsimp only
  rw [if_neg hne]
  exact ⟨trivial, List.mem_singleton_self _⟩

abbrev alicePath : Bytes := defaultLocalStatePath someVariables (ascii "alice")

/-- From the mode of the directory on: `write` is interrupted, and writes the file in two parts. -/
def completed : List Answer :=
  [.ok, .failed, .named (ascii "aaaaaa"), .ok, .wrote 100, .interrupted, .wrote 100000, .ok, .ok,
    .ok, .ok, .ok, .ok]

/-- The process stops behind `rename`. -/
def renamed : List Answer :=
  [.ok, .ok, .ok, .named (ascii "bbbbbb"), .ok, .wrote 100000, .ok, .ok, .ok]

/-- What Alice saves, with a nonce. -/
def aliceFile (nonce : Block kNonceSize) : Bytes :=
  (StateFile.saveLocalState transparent { someEnvironment with nonce := some nonce } alice
    aliceOrder).toOption.getD []

theorem aliceFile_of {nonce : Block kNonceSize}
    (hsave : StateFile.saveLocalState transparent { someEnvironment with nonce := some nonce } alice
      aliceOrder = .ok (aliceFile nonce))
    (hsize : (aliceFile nonce).length ≤ kMaxStateFileBytes) :
    FileOf transparent someEnvironment alice (aliceFile nonce) where
  restorable := ⟨paddedKeys_inverse rfl, paddedKeys_inverse rfl, fun key hkey => by
    obtain rfl := List.mem_singleton.mp hkey
    exact paddedKeys_inverse rfl⟩
  countable := ⟨by decide, by decide, by decide, by decide⟩
  written := ⟨{ someEnvironment with nonce := some nonce }, aliceOrder, rfl, ⟨rfl, rfl⟩,
    fun writer h => by
      obtain rfl : _ = writer := Except.ok.inj h
      exact StateWriter.small_of_length (by decide +kernel),
    hsave⟩
  size := hsize

theorem alice_sound : Sound alice where
  limits := ⟨by decide, by decide, by decide, by decide, by decide, by decide⟩
  paired := ⟨rfl, rfl, by simp [alice, OneTimeKey.make], by simp [alice, OneTimeKey.make]⟩
  sessions := by decide
  transcripts := by decide

def nonce (b : UInt8) : Block kNonceSize := ⟨List.replicate kNonceSize b, List.length_replicate⟩

/-- The first save returns. -/
abbrev first : Except String (Result Unit) × Machine :=
  saveFile alicePath (.ok (aliceFile (nonce 1))) ⟨readyDisk, .ok :: completed⟩

/-- The second stops. -/
abbrev second : Except String (Result Unit) × Machine :=
  saveFile alicePath (.ok (aliceFile (nonce 2))) ⟨first.2.fs, renamed⟩

/-- On a blank disk the directory is made. -/
abbrev firstOfAll : Except String (Result Unit) × Machine :=
  saveFile alicePath (.ok (aliceFile (nonce 1))) ⟨blankDisk, .failed :: .ok :: completed⟩

/-- The files are small enough, and this is what comes of the saves. -/
theorem alice_saves : (aliceFile (nonce 1)).length ≤ kMaxStateFileBytes ∧
    (aliceFile (nonce 2)).length ≤ kMaxStateFileBytes ∧ first.1.toOption = some (.ok ()) ∧
    second.1.toOption = none ∧ firstOfAll.1.toOption = some (.ok ()) := by decide +kernel

theorem aliceFile_of_one : FileOf transparent someEnvironment alice (aliceFile (nonce 1)) :=
  aliceFile_of rfl alice_saves.1

theorem aliceFile_of_two : FileOf transparent someEnvironment alice (aliceFile (nonce 2)) :=
  aliceFile_of rfl alice_saves.2.1

/-- **That save returns, and it may be lost.** -/
theorem firstOfAll_lost : firstOfAll.1.toOption = some (.ok ()) ∧
    ∃ fs', firstOfAll.2.fs.Crash above fs' ∧ fs'.read alicePath = none := by
  refine ⟨alice_saves.2.2.2.2, ?_⟩
  have hdir := parent_defaultLocalStatePath someVariables (ascii "alice")
  have hmem : stateDirectory someVariables ∈ ancestors (stateDirectory someVariables) :=
    List.mem_append_right _ (List.mem_singleton_self _)
  exact saveFile_lost (permanent_defaultLocalStatePath _ _) hdir hmem List.mem_cons_self
    Prod.mk.eta.symm

/-- What Alice has tried. -/
def tried : List Attempt := [⟨aliceFile (nonce 2), false⟩, ⟨aliceFile (nonce 1), true⟩]

theorem saves_alice : ∃ attempts fs, Saves someVariables readyDisk attempts fs ∧
    attempts alicePath = tried := by
  obtain ⟨-, -, hfirst, hsecond, -⟩ := alice_saves
  have hstart : Saves someVariables readyDisk (fun _ => []) readyDisk := .start
  have hrun := (hstart.saved (ascii "alice") (aliceFile (nonce 1))
    (.ok :: completed)).saved
    (ascii "alice") (aliceFile (nonce 2)) renamed
  refine ⟨_, _, hrun.crash (FileSystem.crash_rollback above _), ?_⟩
  have hreturned : ∀ {x : Option (Result Unit)}, x = none → decide (x = some (.ok ())) = false := by
    rintro _ rfl
    rfl
  rw [Function.update_self, Function.update_self, decide_eq_true hfirst, hreturned hsecond, tried]

theorem saves_among_alice : ∃ attempts fs, Saves someVariables readyDisk attempts fs ∧
    fs.Among alicePath [some (aliceFile (nonce 2)), some (aliceFile (nonce 1))] := by
  obtain ⟨attempts, fs, hrun, htried⟩ := saves_alice
  have hamong := Saves.leaves (fun _ => none) readyDisk_kept readyDisk_among hrun (ascii "alice")
  rw [htried] at hamong
  exact ⟨attempts, fs, hrun, hamong⟩

theorem saves_restores_alice : ∃ attempts fs cl, Saves someVariables readyDisk attempts fs ∧
    (loadFile transparent someEnvironment (ascii "alice") alicePath ⟨fs, [.ok, .ok, .ok]⟩).1 =
      .ok (.ok cl) := by
  obtain ⟨attempts, fs, hrun, htried⟩ := saves_alice
  have hclients : OfClients transparent someEnvironment (ascii "alice") (attempts alicePath) := by
    rw [htried]
    intro attempt hattempt
    rcases List.mem_cons.mp hattempt with rfl | hattempt
    · exact ⟨alice, rfl, aliceFile_of_two, alice_sound⟩
    · obtain rfl := List.mem_singleton.mp hattempt
      exact ⟨alice, rfl, aliceFile_of_one, alice_sound⟩
  obtain ⟨r, hload, ⟨-, hfailed⟩ | ⟨_, _, _, cl, _, _, _, rfl⟩⟩ :=
    Saves.restores transparent_opensSeals readyDisk_kept readyDisk_among hrun hclients []
  · rw [htried] at hfailed
    cases hfailed ⟨aliceFile (nonce 1), true⟩ (by simp [tried])
  · exact ⟨attempts, fs, cl, hrun, hload⟩

/-- The world of a client that is run on its own. -/
def aliceWorld (disk : Option (Client Bytes)) : World Bytes Unit :=
  { client := alice, server := (), disk := disk, entropy := id, drawn := 0
    diskOutcome := fun _ => .ok, diskUses := 0, trace := [] }

theorem eq_ok {x : Except String (Result Unit) × Machine} {r : Result Unit}
    (h : x.1.toOption = some r) : x = (.ok r, x.2) := by
  obtain ⟨_ | _, m⟩ := x
  · cases h
  · exact congrArg (Except.ok ·, m) (Option.some.inj h)

theorem first_eq : first = (.ok (.ok ()), first.2) := eq_ok alice_saves.2.2.1

theorem saveFile_refines_alice : ∃ outcome,
    (saveLocalState (answering outcome (aliceWorld none))).1 = .ok () ∧
    Holds transparent someEnvironment (first.2.fs.read alicePath)
      (saveLocalState (answering outcome (aliceWorld none))).2.disk := by
  refine saveFile_refines (permanent_defaultLocalStatePath _ _) .missing
    alice_sound.limits.peers alice_sound.limits.sessions (fun file hfile => ?_) first_eq
  obtain rfl := Except.ok.inj hfile
  exact aliceFile_of_one

theorem first_read : first.2.fs.read alicePath = some (aliceFile (nonce 1)) :=
  ((saveFile_fst (permanent_defaultLocalStatePath _ _) first_eq).2 rfl).read

theorem loadFile_refines_alice : ∃ outcome,
    (loadLocalState (answering outcome (aliceWorld (some alice)))).1 = .ok () ∧
    (loadLocalState (answering outcome (aliceWorld (some alice)))).2.client = alice := by
  have hholds : Holds transparent someEnvironment (first.2.fs.read alicePath) (some alice) := by
    rw [first_read]
    exact .file aliceFile_of_one
  have hload : (loadFile transparent someEnvironment (ascii "alice") alicePath
      ⟨first.2.fs, [.ok, .ok, .ok]⟩).1 = .ok (.ok alice) := by
    rw [loadFile_complete, first_read]
    exact congrArg Except.ok (aliceFile_of_one.load transparent_opensSeals alice_sound)
  have hpair : ∀ {α σ : Type} {x : α × σ} {a : α}, x.1 = a → x = (a, x.2) := by
    rintro α σ ⟨_, _⟩ _ rfl
    rfl
  obtain ⟨-, outcome, hresult, hclient⟩ :=
    loadFile_refines (w := aliceWorld (some alice)) transparent_opensSeals hholds
      (hpair hload)
  exact ⟨outcome, hresult, hclient alice rfl⟩

end Instance

end Persistence

end PqChat
