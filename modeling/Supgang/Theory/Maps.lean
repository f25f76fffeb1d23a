/-
# Theory.Maps — searching an ordered map

`first p map` is the first entry, in key order, that satisfies a test. It is characterised by the
entry it returns, so that searches of two maps can be compared without their lists.

* `first_eq_some`, `first_eq_none` — what a search returns.
* `first_of_extends` — a search of a larger map that ends in the smaller one ends there as well.
* `getElem?_insert_eq`, `getElem?_erase_eq`, `mem_insert_iff` — lookups after an update, by equality
  of keys; `size_erase_lt`, `size_insert_le`, `size_le_of_mem`, `size_lt_of_mem` — sizes.
-/
import Supgang.Theory.Program

namespace Supgang.Theory

set_option autoImplicit false

open List

variable {κ α : Type} [Ord κ] [Std.TransOrd κ] [Std.LawfulEqOrd κ]

/-- The first entry, in key order, that satisfies `p`. -/
def first (p : κ → α → Bool) (map : Std.ExtTreeMap κ α) : Option (κ × α) :=
  map.toList.find? fun entry => p entry.1 entry.2

variable {p : κ → α → Bool} {map : Std.ExtTreeMap κ α} {key : κ} {a : α}

theorem first_spec (h : first p map = some (key, a)) :
    map[key]? = some a ∧ p key a = true ∧
      ∀ other b, map[other]? = some b → p other b = true → compare other key ≠ .lt := by
  obtain ⟨test, before, after, split, fails⟩ := List.find?_eq_some_iff_append.mp h
  have ordered := Std.ExtTreeMap.ordered_keys_toList (t := map)
  have here : (key, a) ∈ map.toList := by simp [split]
  refine ⟨Std.ExtTreeMap.mem_toList_iff_getElem?_eq_some.mp here, test, ?_⟩
  intro other b found tested
  have there : (other, b) ∈ map.toList := Std.ExtTreeMap.mem_toList_iff_getElem?_eq_some.mpr found
  rw [split, mem_append, mem_cons] at there
  rcases there with earlier | same | later
  · have := fails (other, b) earlier
    simp [tested] at this
  · cases same
    rw [(Std.ReflCmp.compare_self : compare key key = .eq)]
    decide
  · rw [split, pairwise_append, pairwise_cons] at ordered
    have less : compare key other = .lt := ordered.2.1.1 (other, b) later
    rw [Std.OrientedCmp.gt_of_lt less]
    decide

theorem first_eq_none : first p map = none ↔ ∀ key a, map[key]? = some a → p key a = false := by
  rw [first, List.find?_eq_none]
  constructor
  · intro h key a found
    have := h (key, a) (Std.ExtTreeMap.mem_toList_iff_getElem?_eq_some.mpr found)
    simpa using this
  · rintro h ⟨key, a⟩ there
    simp [h key a (Std.ExtTreeMap.mem_toList_iff_getElem?_eq_some.mp there)]

theorem first_eq_some :
    first p map = some (key, a) ↔ map[key]? = some a ∧ p key a = true ∧
      ∀ other b, map[other]? = some b → p other b = true → compare other key ≠ .lt := by
  constructor
  · exact first_spec
  · rintro ⟨found, test, least⟩
    cases h : first p map with
    | none =>
      rw [first_eq_none.mp h key a found] at test
      cases test
    | some entry =>
      obtain ⟨key', a'⟩ := entry
      obtain ⟨found', test', least'⟩ := first_spec h
      have le := least' key a found test
      have ge := least key' a' found' test'
      have same : key' = key := by
        refine Std.LawfulEqCmp.eq_of_compare (?_ : compare key' key = .eq)
        cases order : compare key' key with
        | lt => exact absurd order ge
        | eq => rfl
        | gt => exact absurd (Std.OrientedCmp.lt_of_gt order) le
      subst same
      rw [found] at found'
      cases found'
      rfl

/-- A search of a larger map that ends in the smaller one ends there in the smaller one too. -/
theorem first_of_extends {larger : Std.ExtTreeMap κ α}
    (within : ∀ (key : κ) (a : α), map[key]? = some a → larger[key]? = some a)
    (h : first p larger = some (key, a)) (inside : map[key]? = some a) :
    first p map = some (key, a) := by
  obtain ⟨-, test, least⟩ := first_spec h
  refine first_eq_some.mpr ⟨inside, test, ?_⟩
  intro other b found
  exact least other b (within other b found)

theorem getElem?_insert_eq (k : κ) [Decidable (k = key)] :
    (map.insert k a)[key]? = if k = key then some a else map[key]? := by
  rw [Std.ExtTreeMap.getElem?_insert]
  by_cases same : k = key
  · rw [if_pos same, if_pos (Std.compare_eq_iff_eq.mpr same)]
  · rw [if_neg same, if_neg (mt Std.compare_eq_iff_eq.mp same)]

theorem getElem?_erase_eq (k : κ) [Decidable (k = key)] :
    (map.erase k)[key]? = if k = key then none else map[key]? := by
  rw [Std.ExtTreeMap.getElem?_erase]
  by_cases same : k = key
  · rw [if_pos same, if_pos (Std.compare_eq_iff_eq.mpr same)]
  · rw [if_neg same, if_neg (mt Std.compare_eq_iff_eq.mp same)]

theorem mem_insert_iff {k : κ} : key ∈ map.insert k a ↔ key = k ∨ key ∈ map := by
  rw [Std.ExtTreeMap.mem_insert, Std.compare_eq_iff_eq, eq_comm]

section Sizes

omit [Std.LawfulEqOrd κ]

theorem mem_of_getElem? (found : map[key]? = some a) : key ∈ map := by
  rw [Std.ExtTreeMap.mem_iff_isSome_getElem?, found]
  rfl

theorem exists_getElem? (member : key ∈ map) : ∃ a, map[key]? = some a :=
  Option.isSome_iff_exists.mp (Std.ExtTreeMap.mem_iff_isSome_getElem?.mp member)

theorem size_erase_lt (found : map[key]? = some a) : (map.erase key).size < map.size := by
  have member : map.contains key = true := Std.ExtTreeMap.mem_iff_contains.mp (mem_of_getElem? found)
  have positive : map.size ≠ 0 := by
    intro empty
    rw [Std.ExtTreeMap.eq_empty_iff_size_eq_zero.mpr empty] at found
    simp at found
  rw [Std.ExtTreeMap.size_erase, if_pos member]
  omega

theorem size_insert_le : (map.insert key a).size ≤ map.size + 1 := by
  rw [Std.ExtTreeMap.size_insert]
  split <;> omega

end Sizes

/-- A map whose keys are all in a list is no larger than the list. -/
theorem size_le_of_mem {keys : List κ} (within : ∀ key ∈ map, key ∈ keys) :
    map.size ≤ keys.length := by
  rw [← Std.ExtTreeMap.length_keys]
  apply List.Subperm.length_le
  apply Std.ExtTreeMap.nodup_keys.subperm
  intro key inside
  exact within key (Std.ExtTreeMap.mem_keys.mp inside)

/-- A key that the list has and the map does not leaves room. -/
theorem size_lt_of_mem {keys : List κ} (within : ∀ key ∈ map, key ∈ keys) (inside : key ∈ keys)
    (outside : key ∉ map) : map.size < keys.length := by
  rw [← Std.ExtTreeMap.length_keys]
  have distinct : (key :: map.keys).Nodup :=
    nodup_cons.mpr ⟨fun member => outside (Std.ExtTreeMap.mem_keys.mp member),
      Std.ExtTreeMap.nodup_keys⟩
  have subset : key :: map.keys ⊆ keys := by
    intro other member
    rcases mem_cons.mp member with rfl | known
    · exact inside
    · exact within other (Std.ExtTreeMap.mem_keys.mp known)
  have := (distinct.subperm subset).length_le
  simp only [length_cons] at this
  omega

end Supgang.Theory
