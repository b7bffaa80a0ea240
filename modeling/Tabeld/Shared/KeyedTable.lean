import Mathlib.Data.Finset.Card
import Mathlib.Data.List.Nodup

set_option autoImplicit false

structure KeyedTable {E K : Type} (key : E → K) (bound : Nat) where
  entries : List E
  distinct : (entries.map key).Nodup
  bounded : entries.length ≤ bound

namespace KeyedTable

variable {E K : Type} {key : E → K} {bound : Nat}

def empty : KeyedTable key bound := ⟨[], List.nodup_nil, Nat.zero_le bound⟩

def keys (t : KeyedTable key bound) : List K := t.entries.map key

def append (t : KeyedTable key bound) (e : E) (new : key e ∉ t.keys)
    (room : t.entries.length < bound) : KeyedTable key bound where
  entries := t.entries ++ [e]
  distinct := by
    rw [List.map_append, List.map_singleton]
    exact List.nodup_append'.mpr ⟨t.distinct, List.nodup_singleton _,
      List.disjoint_singleton.mpr new⟩
  bounded := by
    rw [List.length_append]
    exact room

theorem map_modify (entries : List E) (i : Nat) {f : E → E} (keeps : ∀ e, key (f e) = key e) :
    (entries.modify i f).map key = entries.map key := by
  induction entries generalizing i with
  | nil => cases i <;> rfl
  | cons e rest ih =>
    cases i with
    | zero => simp [keeps]
    | succ i => simp [ih]

def modify (t : KeyedTable key bound) (i : Nat) (f : E → E) (keeps : ∀ e, key (f e) = key e) :
    KeyedTable key bound where
  entries := t.entries.modify i f
  distinct := by
    rw [map_modify t.entries i keeps]
    exact t.distinct
  bounded := by
    rw [List.length_modify]
    exact t.bounded

section Position

variable [DecidableEq K]

def position (t : KeyedTable key bound) (k : K) : Option Nat :=
  t.entries.findIdx? fun e => decide (key e = k)

theorem position_some {t : KeyedTable key bound} {k : K} {i : Nat}
    (found : t.position k = some i) : ∃ e, t.entries[i]? = some e ∧ key e = k := by
  rw [position, List.findIdx?_eq_some_iff_getElem] at found
  obtain ⟨inside, same, -⟩ := found
  exact ⟨t.entries[i], List.getElem?_eq_getElem inside, by simpa using same⟩

theorem position_none {t : KeyedTable key bound} {k : K} (missing : t.position k = none) :
    k ∉ t.keys := by
  rw [position, List.findIdx?_eq_none_iff] at missing
  rw [keys, List.mem_map]
  rintro ⟨e, member, same⟩
  have other := missing e member
  simp [same] at other

end Position

variable {t : KeyedTable key bound}

theorem eq_of_key {e other : E} (member : e ∈ t.entries) (also : other ∈ t.entries)
    (same : key e = key other) : e = other :=
  List.inj_on_of_nodup_map t.distinct member also same

@[simp] theorem keys_append (e : E) (new : key e ∉ t.keys) (room : t.entries.length < bound) :
    (t.append e new room).keys = t.keys ++ [key e] := by
  simp [keys, append]

@[simp] theorem keys_modify (i : Nat) (f : E → E) (keeps : ∀ e, key (f e) = key e) :
    (t.modify i f keeps).keys = t.keys :=
  map_modify t.entries i keeps

theorem getElem?_modify_self {i : Nat} {e : E} (held : t.entries[i]? = some e) (f : E → E)
    (keeps : ∀ e, key (f e) = key e) : (t.modify i f keeps).entries[i]? = some (f e) := by
  simp [modify, held]

theorem mem_modify_other {i : Nat} {e other : E} (held : t.entries[i]? = some e)
    (member : other ∈ t.entries) (different : key other ≠ key e) (f : E → E)
    (keeps : ∀ e, key (f e) = key e) : other ∈ (t.modify i f keeps).entries := by
  obtain ⟨j, there⟩ := List.getElem?_of_mem member
  have apart : i ≠ j := by
    rintro rfl
    rw [held, Option.some.injEq] at there
    exact different (congrArg key there.symm)
  apply List.mem_of_getElem? (i := j)
  simp [modify, apart, there]

theorem room [DecidableEq K] {names : Finset K} {k : K} (few : names.card ≤ bound)
    (known : ∀ other ∈ t.keys, other ∈ names) (member : k ∈ names) (new : k ∉ t.keys) :
    t.entries.length < bound := by
  have nodup : (k :: t.keys).Nodup := List.nodup_cons.mpr ⟨new, t.distinct⟩
  have inside : (k :: t.keys).toFinset ⊆ names := by
    intro other found
    rcases List.mem_cons.mp (List.mem_toFinset.mp found) with rfl | old
    · exact member
    · exact known other old
  have count := Finset.card_le_card inside
  rw [List.toFinset_card_of_nodup nodup, List.length_cons, keys, List.length_map] at count
  omega

end KeyedTable
