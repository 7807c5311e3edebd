/-
# Files and crashes

A process sees the file system as the calls before have left it.  The disk may lag behind: a name
may still lead to what it led to before, until its directory is synced, and the content of a file
may be anything until the file is.  A `Crash` leaves any of these.  A name is looked up through
the directories above it, and it is lost with any of them: to sync a new directory does not bring
its own name to the disk (`exists_crash_lost`).

`Among n contents` says that whatever the disk has under the name `n` is one of `contents`, and
`Held above n` that all directories above it are there; then a crash leaves one of `contents`
(`Among.crash`).  There is a rule for each call.  The one that matters is `Among.rename`: a file
whose content is on the disk takes the place of another, and in between there is nothing else to
be seen.
-/
import Mathlib.Data.List.Basic
import Mathlib.Logic.Function.Basic

set_option linter.unusedSectionVars false

/-- What is reached under a name, with all links followed. -/
inductive Target
  | nothing
  | directory
  | file (inode : Nat)
  deriving DecidableEq, Repr

/-- What a name leads to. -/
inductive Node
  | file (inode : Nat)
  | directory
  | symlink (target : Target)
  deriving DecidableEq, Repr

/-- What is reached from there. -/
def Node.target : Option Node → Target
  | none => .nothing
  | some (.file i) => .file i
  | some .directory => .directory
  | some (.symlink t) => t

/-- A file system.  `older n` is what the disk may have under `n` instead of `names n`; `clean`
are the inodes whose content is on the disk. -/
structure FileSystem (N α : Type) where
  names : N → Option Node
  older : N → List (Option Node)
  data : Nat → List α
  clean : Nat → Bool
  mode : Nat → Nat
  next : Nat
  fresh : ∀ n i, ∀ node ∈ names n :: older n, Node.target node = .file i → i < next

namespace FileSystem

variable {N α : Type} {above : N → List N} {fs fs' : FileSystem N α} {n m : N} {i j : Nat}
  {node : Option Node} {contents : List (Option (List α))}

/-! ## 1. What is there -/

/-- The content of what a name leads to. -/
def content (fs : FileSystem N α) (node : Option Node) : Option (List α) :=
  match Node.target node with
  | .file i => some (fs.data i)
  | _ => none

theorem content_file (fs : FileSystem N α) (i : Nat) :
    fs.content (some (.file i)) = some (fs.data i) := rfl

/-- What is read under a name. -/
def read (fs : FileSystem N α) (n : N) : Option (List α) := fs.content (fs.names n)

/-- What the disk may have under a name. -/
def recent (fs : FileSystem N α) (n : N) : List (Option Node) := fs.names n :: fs.older n

/-- The content is on the disk.  Nothing is known of a file behind a link. -/
def Stable (fs : FileSystem N α) : Option Node → Prop
  | some (.file i) => fs.clean i = true
  | some (.symlink _) => False
  | _ => True

/-- Whatever the disk has under the name has one of these contents. -/
def Among (fs : FileSystem N α) (n : N) (contents : List (Option (List α))) : Prop :=
  ∀ node ∈ fs.recent n, fs.Stable node ∧ fs.content node ∈ contents

/-- The name is not that of the file. -/
def Apart (fs : FileSystem N α) (n : N) (i : Nat) : Prop := some (.file i) ∉ fs.recent n

/-- The name is that of a directory, and it is on the disk. -/
def Kept (fs : FileSystem N α) (d : N) : Prop := ∀ node ∈ fs.recent d, node = some .directory

/-- So are all directories through which the name is looked up. -/
def Held (above : N → List N) (fs : FileSystem N α) (n : N) : Prop := ∀ d ∈ above n, fs.Kept d

/-- What is found under a name, if the disk has these entries. -/
def lookup (above : N → List N) (disk : N → Option Node) (n : N) : Option Node :=
  if ∀ d ∈ above n, Node.target (disk d) = .directory then disk n else none

/-- The computer stops, and starts again from what is on the disk.  `above` are the directories
through which a name is looked up. -/
structure Crash (above : N → List N) (fs fs' : FileSystem N α) : Prop where
  names : ∃ disk, (∀ n, disk n ∈ fs.recent n) ∧ fs'.names = lookup above disk
  older : ∀ n, fs'.older n = []
  data : ∀ i, fs.clean i = true → fs'.data i = fs.data i
  clean : ∀ i, fs.clean i = true → fs'.clean i = true

theorem Among.read (h : fs.Among n contents) : fs.read n ∈ contents :=
  (h _ List.mem_cons_self).2

theorem Among.mono (h : fs.Among n contents) {contents' : List (Option (List α))}
    (hsub : contents ⊆ contents') : fs.Among n contents' := fun node hnode =>
  ⟨(h node hnode).1, hsub (h node hnode).2⟩

/-- The rules rest on this: nothing that the name may lead to has changed. -/
theorem Among.of_agree (h : fs.Among n contents) (hrecent : fs'.recent n ⊆ fs.recent n)
    (hsame : ∀ i, some (.file i) ∈ fs.recent n →
      fs'.data i = fs.data i ∧ (fs.clean i = true → fs'.clean i = true)) :
    fs'.Among n contents := by
  intro node hnode
  obtain ⟨hstable, hcontent⟩ := h node (hrecent hnode)
  match node, hnode, hstable, hcontent with
  | none, _, _, hcontent | some .directory, _, _, hcontent => exact ⟨trivial, hcontent⟩
  | some (.symlink _), _, hstable, _ => exact hstable.elim
  | some (.file i), hnode, hstable, hcontent =>
    obtain ⟨hdata, hclean⟩ := hsame i (hrecent hnode)
    refine ⟨hclean hstable, ?_⟩
    rw [content_file] at hcontent ⊢
    rw [hdata]
    exact hcontent

/-! ### What a crash leaves -/

theorem Crash.recent (hcrash : fs.Crash above fs') (n : N) : fs'.recent n = [fs'.names n] := by
  rw [FileSystem.recent, hcrash.older]

/-- Nothing else can have come under the name. -/
theorem Crash.names_mem (hcrash : fs.Crash above fs') (hheld : fs.Held above n) :
    fs'.names n ∈ fs.recent n := by
  obtain ⟨disk, hdisk, hnames⟩ := hcrash.names
  have habove : ∀ d ∈ above n, Node.target (disk d) = .directory := fun d hd => by
    rw [hheld d hd _ (hdisk d), Node.target]
  rw [hnames, lookup, if_pos habove]
  exact hdisk n

theorem Crash.kept (hcrash : fs.Crash above fs') (hheld : fs.Held above n) (h : fs.Kept n) :
    fs'.Kept n := by
  intro node hnode
  rw [hcrash.recent, List.mem_singleton] at hnode
  rw [hnode]
  exact h _ (hcrash.names_mem hheld)

/-- **What a crash leaves**, if no directory above the name is lost. -/
theorem Among.crash (h : fs.Among n contents) (hheld : fs.Held above n)
    (hcrash : fs.Crash above fs') : fs'.read n ∈ contents ∧ fs'.Among n [fs'.read n] := by
  have hafter : fs'.Among n contents := by
    refine h.of_agree ?_ fun i hi => ?_
    · rw [hcrash.recent]
      exact List.cons_subset.mpr ⟨hcrash.names_mem hheld, List.nil_subset _⟩
    · have hclean := (h _ hi).1
      exact ⟨hcrash.data i hclean, hcrash.clean i⟩
  refine ⟨hafter.read, fun node hnode => ?_⟩
  rw [hcrash.recent, List.mem_singleton] at hnode
  rw [hnode]
  exact ⟨(hafter _ List.mem_cons_self).1, List.mem_singleton_self _⟩

/-- What is there after a crash, if the disk has these entries. -/
def restart (above : N → List N) (fs : FileSystem N α) (disk : N → Option Node)
    (hdisk : ∀ n, disk n ∈ fs.recent n) : FileSystem N α :=
  { fs with
    names := lookup above disk
    older := fun _ => []
    fresh := by
      intro n i node hnode hi
      rw [List.mem_singleton.mp hnode, lookup] at hi
      split at hi
      · exact fs.fresh n i _ (hdisk n) hi
      · cases hi }

theorem crash_restart (above : N → List N) (fs : FileSystem N α) {disk : N → Option Node}
    (hdisk : ∀ n, disk n ∈ fs.recent n) : fs.Crash above (fs.restart above disk hdisk) where
  names := ⟨disk, hdisk, rfl⟩
  older _ := rfl
  data _ _ := rfl
  clean _ h := h

/-- A crash that loses as many names as it can. -/
def rollback (above : N → List N) (fs : FileSystem N α) : FileSystem N α :=
  fs.restart above (fun n => (fs.recent n).getLast (List.cons_ne_nil _ _)) fun _ =>
    List.getLast_mem _

theorem crash_rollback (above : N → List N) (fs : FileSystem N α) :
    fs.Crash above (fs.rollback above) := crash_restart above fs _

/-! ## 2. Calls -/

variable [DecidableEq N]

/-- **A file is lost with a directory above it**, whatever has been synced in there. -/
theorem exists_crash_lost {d : N} (hd : d ∈ above n) (hlost : none ∈ fs.recent d) :
    ∃ fs', fs.Crash above fs' ∧ fs'.read n = none := by
  have hdisk : ∀ m, Function.update fs.names d none m ∈ fs.recent m := by
    intro m
    by_cases hm : m = d
    · rw [hm, Function.update_self]
      exact hlost
    · rw [Function.update_of_ne hm]
      exact List.mem_cons_self
  refine ⟨_, crash_restart above fs hdisk, ?_⟩
  have hnames : (fs.restart above _ hdisk).names n = none := by
    refine if_neg fun h => ?_
    have hdirectory := h d hd
    rw [Function.update_self] at hdirectory
    cases hdirectory
  rw [read, hnames]
  rfl

/-- A name comes to lead to something. -/
def link (fs : FileSystem N α) (n : N) (node : Option Node)
    (h : ∀ i, Node.target node = .file i → i < fs.next) : FileSystem N α :=
  { fs with
    names := Function.update fs.names n node
    older := Function.update fs.older n (fs.recent n)
    fresh := by
      intro m i entry hentry hi
      by_cases hm : m = n
      · subst hm
        rw [Function.update_self, Function.update_self] at hentry
        rcases List.mem_cons.mp hentry with rfl | hentry
        · exact h i hi
        · exact fs.fresh m i entry hentry hi
      · rw [Function.update_of_ne hm, Function.update_of_ne hm] at hentry
        exact fs.fresh m i entry hentry hi }

/-- A new file. -/
def create (fs : FileSystem N α) (n : N) (mode : Nat) : FileSystem N α :=
  { names := Function.update fs.names n (some (.file fs.next))
    older := Function.update fs.older n (fs.recent n)
    data := Function.update fs.data fs.next []
    clean := Function.update fs.clean fs.next false
    mode := Function.update fs.mode fs.next mode
    next := fs.next + 1
    fresh := by
      intro m i entry hentry hi
      by_cases hm : m = n
      · subst hm
        rw [Function.update_self, Function.update_self] at hentry
        rcases List.mem_cons.mp hentry with rfl | hentry
        · obtain rfl := Target.file.inj hi
          exact Nat.lt_succ_self _
        · exact Nat.lt_succ_of_lt (fs.fresh m i entry hentry hi)
      · rw [Function.update_of_ne hm, Function.update_of_ne hm] at hentry
        exact Nat.lt_succ_of_lt (fs.fresh m i entry hentry hi) }

/-- Something is written at the end of a file. -/
def append (fs : FileSystem N α) (i : Nat) (b : List α) : FileSystem N α :=
  { fs with
    data := Function.update fs.data i (fs.data i ++ b)
    clean := Function.update fs.clean i false }

/-- The content of a file comes to the disk. -/
def sync (fs : FileSystem N α) (i : Nat) : FileSystem N α :=
  { fs with clean := Function.update fs.clean i true }

def chmod (fs : FileSystem N α) (i mode : Nat) : FileSystem N α :=
  { fs with mode := Function.update fs.mode i mode }

def unlink (fs : FileSystem N α) (n : N) : FileSystem N α := fs.link n none fun _ h => by cases h

def mkdir (fs : FileSystem N α) (n : N) : FileSystem N α :=
  fs.link n (some .directory) fun _ h => by cases h

/-- The file that `m` leads to takes the place of what `n` leads to. -/
def rename (fs : FileSystem N α) (m n : N) : FileSystem N α :=
  (fs.link n (fs.names m) fun i h => fs.fresh m i _ List.mem_cons_self h).unlink m

/-- The names of a directory come to the disk. -/
def syncDirectory (fs : FileSystem N α) (inside : N → Bool) : FileSystem N α :=
  { fs with
    older := fun n => if inside n then [] else fs.older n
    fresh := by
      intro n i node hnode hi
      refine fs.fresh n i node ?_ hi
      split at hnode
      · rw [List.mem_singleton.mp hnode]
        exact List.mem_cons_self
      · exact hnode }

/-! ## 3. Rules -/

section Link

variable {h : ∀ i, Node.target node = .file i → i < fs.next}

theorem recent_link_of_ne (hn : n ≠ m) : (fs.link m node h).recent n = fs.recent n := by
  simp [recent, link, hn]

theorem recent_suffix_link (n m : N) : fs.recent n <:+ (fs.link m node h).recent n := by
  by_cases hn : n = m
  · subst hn
    refine ⟨[node], ?_⟩
    simp [recent, link]
  · simp only [recent_link_of_ne hn, List.suffix_rfl]

theorem Among.link (hamong : fs.Among n contents) (hn : n ≠ m) :
    (fs.link m node h).Among n contents := by
  intro node hnode
  rw [recent_link_of_ne hn] at hnode
  exact hamong node hnode

theorem Among.link_self (hamong : fs.Among n contents) (hstable : fs.Stable node) :
    (fs.link n node h).Among n (fs.content node :: contents) := by
  have hrecent : (fs.link n node h).recent n = node :: fs.recent n := by
    simp [recent, FileSystem.link]
  intro node' hnode
  rw [hrecent] at hnode
  rcases List.mem_cons.mp hnode with rfl | hnode
  · exact ⟨hstable, List.mem_cons_self⟩
  · exact ⟨(hamong node' hnode).1, List.mem_cons_of_mem _ (hamong node' hnode).2⟩

end Link

theorem Apart.of_fresh (fs : FileSystem N α) (n : N) : fs.Apart n fs.next := fun h =>
  Nat.lt_irrefl _ (fs.fresh n _ _ h rfl)

theorem recent_create_of_ne (hn : n ≠ m) (mode : Nat) :
    (fs.create m mode).recent n = fs.recent n := by
  simp [recent, create, hn]

theorem Among.create (h : fs.Among n contents) (hn : n ≠ m) (mode : Nat) :
    (fs.create m mode).Among n contents := by
  have hrecent : (fs.create m mode).recent n = fs.recent n := recent_create_of_ne hn mode
  refine h.of_agree (hrecent ▸ List.Subset.refl _) fun i hi => ?_
  have hne : i ≠ fs.next := Nat.ne_of_lt (fs.fresh n i _ hi rfl)
  simp [FileSystem.create, hne]

theorem Among.append (h : fs.Among n contents) (hi : fs.Apart n i) (b : List α) :
    (fs.append i b).Among n contents := by
  refine h.of_agree (List.Subset.refl _) fun j hj => ?_
  have hne : j ≠ i := by
    rintro rfl
    exact hi hj
  simp [FileSystem.append, hne]

theorem Among.sync (h : fs.Among n contents) (i : Nat) : (fs.sync i).Among n contents := by
  refine h.of_agree (List.Subset.refl _) fun j _ => ⟨rfl, fun hclean => ?_⟩
  by_cases hj : j = i
  · simp [FileSystem.sync, hj]
  · simpa [FileSystem.sync, hj] using hclean

theorem Among.chmod (h : fs.Among n contents) (i mode : Nat) :
    (fs.chmod i mode).Among n contents := h

theorem recent_unlink_of_ne (hn : n ≠ m) : (fs.unlink m).recent n = fs.recent n :=
  recent_link_of_ne hn

theorem recent_rename_of_ne {k : N} (hm : k ≠ m) (hn : k ≠ n) :
    (fs.rename m n).recent k = fs.recent k :=
  (recent_unlink_of_ne hm).trans (recent_link_of_ne hn)

theorem Among.unlink (h : fs.Among n contents) (hn : n ≠ m) : (fs.unlink m).Among n contents :=
  Among.link h hn

theorem Among.mkdir (h : fs.Among n contents) (hn : n ≠ m) : (fs.mkdir m).Among n contents :=
  Among.link h hn

/-- **A file whose content is on the disk takes the place of another.** -/
theorem Among.rename (h : fs.Among n contents) (hn : n ≠ m)
    (hstable : fs.Stable (fs.names m)) :
    (fs.rename m n).Among n (fs.read m :: contents) :=
  (h.link_self hstable).unlink hn

theorem recent_syncDirectory {inside : N → Bool} (hn : ¬ inside n = true) :
    (fs.syncDirectory inside).recent n = fs.recent n := by
  rw [recent, syncDirectory]
  dsimp only
  rw [if_neg hn]
  rfl

theorem Among.syncDirectory (h : fs.Among n contents) (inside : N → Bool) :
    (fs.syncDirectory inside).Among n contents := by
  intro node hnode
  refine h node ?_
  rw [recent, FileSystem.syncDirectory] at hnode
  rcases List.mem_cons.mp hnode with rfl | hnode
  · exact List.mem_cons_self
  · dsimp only at hnode
    split at hnode
    · exact absurd hnode List.not_mem_nil
    · exact List.mem_cons_of_mem _ hnode

/-- **Then the disk has what is there.** -/
theorem among_synced (hstable : fs.Stable (fs.names n)) {inside : N → Bool} (hn : inside n = true) :
    (fs.syncDirectory inside).Among n [fs.read n] := by
  intro node hnode
  rw [recent, FileSystem.syncDirectory] at hnode
  dsimp only at hnode
  rw [if_pos hn, List.mem_singleton] at hnode
  rw [hnode]
  exact ⟨hstable, List.mem_singleton_self _⟩

end FileSystem
