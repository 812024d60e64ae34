import Mathlib.Logic.Function.Basic
import Mathlib.Tactic.Common

/-!
A cache in front of a table. It is filled from the table and loses entries at any
time, and nothing in it changes when the table does. Its entries agree with the
table, up to a relation on the values, as long as every change of the table that
the relation tells apart empties it.
-/
namespace General

variable {K V : Type*}

abbrev Cache (K V : Type*) := K → Option V

namespace Cache

def empty : Cache K V := fun _ => none

/-- The cached value of a key, or the one that the table has. -/
def lookup (cache : Cache K V) (table : K → V) (k : K) : V := (cache k).getD (table k)

def Agrees (rel : V → V → Prop) (table : K → V) (cache : Cache K V) : Prop :=
  ∀ k v, cache k = some v → rel v (table k)

variable {rel : V → V → Prop} {table table' : K → V} {cache : Cache K V}

theorem agrees_empty : Agrees rel table empty := by
  intro k v h
  simp [empty] at h

theorem Agrees.lookup (h : Agrees rel table cache) (hrefl : ∀ v, rel v v) (k : K) :
    rel (cache.lookup table k) (table k) := by
  rw [Cache.lookup]
  rcases hcached : cache k with _ | v
  · exact hrefl _
  · exact h k v hcached

/-- The table has changed to one that the relation does not tell apart. -/
theorem Agrees.of_table (h : Agrees rel table cache)
    (htrans : ∀ {u v w}, rel u v → rel v w → rel u w) (htable : ∀ k, rel (table k) (table' k)) :
    Agrees rel table' cache :=
  fun k v hcached => htrans (h k v hcached) (htable k)

variable [DecidableEq K]

def fill (cache : Cache K V) (k : K) (v : V) : Cache K V := Function.update cache k (some v)

def evict (cache : Cache K V) (k : K) : Cache K V := Function.update cache k none

theorem Agrees.fill (h : Agrees rel table cache) {k : K} {v : V} (hv : rel v (table k)) :
    Agrees rel table (cache.fill k v) := by
  intro k' v' hcached
  by_cases hk : k' = k
  · subst hk
    rw [Cache.fill, Function.update_self] at hcached
    rw [← Option.some.inj hcached]
    exact hv
  · rw [Cache.fill, Function.update_of_ne hk] at hcached
    exact h k' v' hcached

theorem Agrees.evict (h : Agrees rel table cache) (k : K) : Agrees rel table (cache.evict k) := by
  intro k' v' hcached
  by_cases hk : k' = k
  · subst hk
    simp [Cache.evict] at hcached
  · rw [Cache.evict, Function.update_of_ne hk] at hcached
    exact h k' v' hcached

/-- What is cached of some keys goes. -/
def drop (cache : Cache K V) (p : K → Bool) : Cache K V := fun k => if p k then none else cache k

omit [DecidableEq K] in
/-- The table may have changed for what is dropped. -/
theorem Agrees.drop (h : Agrees rel table cache) {p : K → Bool}
    (htable : ∀ k, p k = false → table k = table' k) : Agrees rel table' (cache.drop p) := by
  intro k v hcached
  rw [Cache.drop] at hcached
  split at hcached
  · simp at hcached
  · rename_i hp
    rw [← htable k (Bool.eq_false_iff.mpr hp)]
    exact h k v hcached

end Cache

end General
