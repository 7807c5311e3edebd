/-
# Maps that are read at single keys

A table of a server is looked up at one key, updated at one key, or swept: every entry that
fails a test is erased, in whatever order the entries are visited.  For that use a map is the
function that looks up.

A table that is also iterated over is a `Finmap`.  The order of an iteration is not determined by
the table; `Iterates` says of a list that it is one.
-/
import Mathlib.Logic.Function.Basic
import Mathlib.Data.Option.Basic
import Mathlib.Data.Finmap

/-- A map from `K` to `V`. -/
def Map (K V : Type) : Type := K → Option V

namespace Map

variable {K V W : Type}

instance : EmptyCollection (Map K V) := ⟨fun _ => none⟩

instance : Inhabited (Map K V) := ⟨∅⟩

/-- The entry at a key. -/
def get (m : Map K V) (k : K) : Option V := m k

/-- Put a value at a key, over the one that may be there. -/
def set [DecidableEq K] (m : Map K V) (k : K) (v : V) : Map K V := fun k' =>
  if k' = k then some v else m k'

/-- Erase the entry at a key. -/
def erase [DecidableEq K] (m : Map K V) (k : K) : Map K V := fun k' =>
  if k' = k then none else m k'

/-- Change the value at a key, if there is one. -/
def adjust [DecidableEq K] (m : Map K V) (k : K) (f : V → V) : Map K V := fun k' =>
  if k' = k then (m k').map f else m k'

/-- Erase every entry that fails a test. -/
def sweep (m : Map K V) (p : K → V → Bool) : Map K V := fun k => (m k).filter (p k)

/-- Change every value. -/
def mapValues (f : V → W) (m : Map K V) : Map K W := fun k => (m k).map f

@[ext] theorem ext {m m' : Map K V} (h : ∀ k, m.get k = m'.get k) : m = m' := funext h

@[simp] theorem get_empty (k : K) : (∅ : Map K V).get k = none := rfl

@[simp] theorem get_set_self [DecidableEq K] (m : Map K V) (k : K) (v : V) :
    (m.set k v).get k = some v := if_pos rfl

theorem get_set [DecidableEq K] (m : Map K V) (k k' : K) (v : V) :
    (m.set k v).get k' = if k' = k then some v else m.get k' := rfl

theorem get_set_of_ne [DecidableEq K] (m : Map K V) {k k' : K} (h : k' ≠ k) (v : V) :
    (m.set k v).get k' = m.get k' := if_neg h

/-- A table that is read through `g` is changed at one key. -/
theorem comp_get_set {W : Type} [DecidableEq K] (g : Option V → W) (m : Map K V) (k : K) (v : V) :
    (fun k' => g ((m.set k v).get k')) =
      Function.update (fun k' => g (m.get k')) k (g (some v)) := by
  funext k'
  by_cases hk : k' = k
  · subst hk
    rw [Function.update_self, get_set_self]
  · rw [Function.update_of_ne hk, get_set_of_ne m hk]

theorem get_erase [DecidableEq K] (m : Map K V) (k k' : K) :
    (m.erase k).get k' = if k' = k then none else m.get k' := rfl

@[simp] theorem get_erase_self [DecidableEq K] (m : Map K V) (k : K) :
    (m.erase k).get k = none := if_pos rfl

theorem get_adjust [DecidableEq K] (m : Map K V) (k k' : K) (f : V → V) :
    (m.adjust k f).get k' = if k' = k then (m.get k').map f else m.get k' := rfl

theorem get_mapValues (f : V → W) (m : Map K V) (k : K) :
    (m.mapValues f).get k = (m.get k).map f := rfl

theorem get_sweep (m : Map K V) (p : K → V → Bool) (k : K) :
    (m.sweep p).get k = (m.get k).filter (p k) := rfl

/-- In a table of lists an empty list and no list are the same. -/
theorem getD_sweep_nonempty {f : List V → List W} (m : Map K (List V)) (hf : f [] = []) (k : K) :
    (((m.mapValues f).sweep fun _ l => !l.isEmpty).get k).getD [] = f ((m.get k).getD []) := by
  rw [get_sweep, get_mapValues]
  rcases m.get k with _ | l
  · exact hf.symm
  · rcases h : f l with _ | ⟨w, rest⟩ <;> simp [h, Option.filter]

theorem get_sweep_eq_some {m : Map K V} {p : K → V → Bool} {k : K} {v : V} :
    (m.sweep p).get k = some v ↔ m.get k = some v ∧ p k v = true := by
  rw [get_sweep, Option.filter_eq_some_iff]

end Map

/-! ## 2. Iterations -/

namespace Finmap

variable {K V : Type}

/-- `l` is the list of the entries, in the order of one iteration over the table. -/
def Iterates (table : Finmap fun _ : K => V) (l : List (Sigma fun _ : K => V)) : Prop :=
  table.entries = (l : Multiset _)

theorem Iterates.length_eq {table : Finmap fun _ : K => V} {l : List (Sigma fun _ : K => V)}
    (h : table.Iterates l) : l.length = table.keys.card := by
  have hkeys : table.keys.val = table.entries.keys := rfl
  rw [Finset.card, hkeys, h, Multiset.keys, Multiset.card_map, Multiset.coe_card]

theorem lookup_foldl_insert [DecidableEq K] (l : List (Sigma fun _ : K => V))
    (hl : l.NodupKeys) (table : Finmap fun _ : K => V) (k : K) :
    (l.foldl (fun table e => table.insert e.1 e.2) table).lookup k =
      (l.dlookup k).or (table.lookup k) := by
  induction l generalizing table with
  | nil => rfl
  | cons e l ih =>
    obtain ⟨a, v⟩ := e
    obtain ⟨ha, hl⟩ := List.nodupKeys_cons.mp hl
    rw [List.foldl_cons, ih hl]
    by_cases hk : k = a
    · subst hk
      rw [List.dlookup_eq_none.mpr ha, lookup_insert, List.dlookup_cons_eq]
      rfl
    · rw [lookup_insert_of_ne _ hk, List.dlookup_cons_ne _ _ hk]

/-- The sum over the entries, with an insertion: what was there is not counted any more. -/
theorem sum_entries_insert [DecidableEq K] (table : Finmap fun _ : K => V) (k : K) (v : V)
    (f : (Sigma fun _ : K => V) → Nat) :
    ((table.insert k v).entries.map f).sum + ((table.lookup k).map fun old => f ⟨k, old⟩).getD 0 =
      (table.entries.map f).sum + f ⟨k, v⟩ := by
  have hnew : ∀ (rest : Finmap fun _ : K => V) (v : V), k ∉ rest →
      ((rest.insert k v).entries.map f).sum = f ⟨k, v⟩ + (rest.entries.map f).sum := by
    intro rest v hk
    rw [entries_insert_of_notMem hk, Multiset.map_cons, Multiset.sum_cons]
  rcases hl : table.lookup k with _ | old
  · rw [hnew table v (lookup_eq_none.mp hl), Option.map_none, Option.getD_none, add_zero, add_comm]
  · have hold : table = (table.erase k).insert k old := by
      refine ext_lookup fun k' => ?_
      by_cases hk : k' = k
      · rw [hk, hl, lookup_insert]
      · rw [lookup_insert_of_ne _ hk, lookup_erase_ne hk]
    have hinsert : table.insert k v = (table.erase k).insert k v := by
      rw [hold, insert_insert, ← hold]
    have hsum := hnew (table.erase k) old notMem_erase_self
    rw [← hold] at hsum
    rw [hinsert, hnew _ v notMem_erase_self, hsum]
    simp only [Option.map_some, Option.getD_some]
    omega

theorem keys_insert [DecidableEq K] (table : Finmap fun _ : K => V) (k : K) (v : V) :
    (table.insert k v).keys = Insert.insert k table.keys := by
  ext k'
  rw [mem_keys, mem_insert, Finset.mem_insert, mem_keys]

/-- Only a key that is new makes a table larger. -/
theorem card_keys_insert_le [DecidableEq K] {table : Finmap fun _ : K => V} {k : K} {max : Nat}
    (htable : table.keys.card ≤ max) (hnew : table.lookup k = none → table.keys.card < max)
    (v : V) : (table.insert k v).keys.card ≤ max := by
  rw [keys_insert]
  by_cases hk : k ∈ table
  · rwa [Finset.insert_eq_of_mem (mem_keys.mpr hk)]
  · exact (Finset.card_insert_le _ _).trans (hnew (lookup_eq_none.mpr hk))

/-- Inserting the entries in the order of an iteration builds the table anew. -/
theorem Iterates.foldl_insert [DecidableEq K] {table : Finmap fun _ : K => V}
    {l : List (Sigma fun _ : K => V)} (h : table.Iterates l) :
    l.foldl (fun table e => table.insert e.1 e.2) ∅ = table := by
  have hl : l.NodupKeys := by
    have hnodup := table.nodupKeys
    rw [h] at hnodup
    exact Multiset.coe_nodupKeys.mp hnodup
  have htable : table = AList.toFinmap ⟨l, hl⟩ := Finmap.ext h
  refine ext_lookup fun k => ?_
  rw [lookup_foldl_insert l hl, lookup_empty, Option.or_none, htable, lookup_toFinmap]
  rfl

end Finmap
