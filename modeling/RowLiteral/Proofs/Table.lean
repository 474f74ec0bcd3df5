import Mathlib.Data.List.Nodup
import RowLiteral.Table

/-!
# Tables

What writing does to the keys of a table, and what is found where keys are distinct.  A key that is
written is added behind the others unless it is there, so the keys of a table that was written entry
by entry are distinct; and entries with distinct keys are the table that they are written into.

* `Table.nodup_keys_ofEntries`: the keys of a table are distinct.
* `Table.get?_eq_some_iff`: with distinct keys every entry is the one that is found.
-/

namespace RowLiteral
namespace Table

variable {κ α : Type} [DecidableEq κ]

/-! ### Keys -/

/-- A key that is written is added behind the others, unless it is there. -/
theorem keys_put (t : Table κ α) (key : κ) (x : α) :
    (put key x t).keys = if key ∈ t.keys then t.keys else t.keys ++ [key] := by
  induction t with
  | nil => rfl
  | cons e rest ih =>
      unfold put
      by_cases h : e.1 = key
      · simp [h, keys]
      · have others : key ∈ keys (e :: rest) ↔ key ∈ keys rest := by
          simp [keys, Ne.symm h]
        rw [if_neg h]
        simp only [others]
        rw [keys, List.map_cons]
        rw [keys] at ih
        rw [ih]
        split <;> simp [keys]

theorem nodup_keys_put {t : Table κ α} (h : t.keys.Nodup) (key : κ) (x : α) :
    (put key x t).keys.Nodup := by
  rw [keys_put]
  split
  · exact h
  · next fresh =>
    refine List.nodup_append.2 ⟨h, List.nodup_singleton key, fun a ha b hb => ?_⟩
    rw [List.mem_singleton.1 hb]
    exact fun e => fresh (e ▸ ha)

theorem mem_of_mem_put {t : Table κ α} {key : κ} {x : α} {e : κ × α} (h : e ∈ put key x t) :
    e = (key, x) ∨ e ∈ t := by
  induction t with
  | nil => exact .inl (List.mem_singleton.1 h)
  | cons e' rest ih =>
      unfold put at h
      split at h
      · exact (List.mem_cons.1 h).imp_right (List.mem_cons_of_mem e')
      · rcases List.mem_cons.1 h with rfl | h
        · exact .inr List.mem_cons_self
        · exact (ih h).imp_right (List.mem_cons_of_mem e')

/-- What is found in a table stands in it. -/
theorem mem_of_get? {t : Table κ α} {key : κ} {x : α} (h : get? t key = some x) :
    (key, x) ∈ t := by
  obtain ⟨e, found, rfl⟩ := Option.map_eq_some_iff.1 h
  obtain rfl : e.1 = key := by simpa using List.find?_some found
  exact List.mem_of_find?_eq_some found

theorem nodup_keys_ofEntries (entries : List (κ × α)) : (ofEntries entries).keys.Nodup := by
  have written : ∀ t : Table κ α, t.keys.Nodup → (putAll t entries).keys.Nodup := by
    induction entries with
    | nil => exact fun _ h => h
    | cons e rest ih => exact fun t h => ih _ (nodup_keys_put h e.1 e.2)
  exact written [] List.nodup_nil

/-- What stands in a table was written into it. -/
theorem mem_of_mem_ofEntries {entries : List (κ × α)} {e : κ × α} (h : e ∈ ofEntries entries) :
    e ∈ entries := by
  have written : ∀ t : Table κ α, e ∈ putAll t entries → e ∈ t ∨ e ∈ entries := by
    clear h
    induction entries with
    | nil => exact fun _ h => .inl h
    | cons e' rest ih =>
        intro t h
        rcases ih (put e'.1 e'.2 t) h with h | h
        · rcases mem_of_mem_put h with rfl | h
          · exact .inr List.mem_cons_self
          · exact .inl h
        · exact .inr (List.mem_cons_of_mem e' h)
  exact (written [] h).resolve_left List.not_mem_nil

/-- Under every one of these keys the same is found. -/
theorem get?_map_const (ks : List κ) (x : α) (key : κ) :
    get? (ks.map fun k => (k, x)) key = if key ∈ ks then some x else none := by
  induction ks with
  | nil => rfl
  | cons k ks ih =>
      rw [List.map_cons, get?_cons, ih]
      by_cases h : k = key
      · simp [h]
      · simp [h, Ne.symm h]

/-! ### Distinct keys -/

theorem put_of_not_mem {t : Table κ α} {key : κ} (fresh : key ∉ t.keys) (x : α) :
    put key x t = t ++ [(key, x)] := by
  induction t with
  | nil => rfl
  | cons e rest ih =>
      obtain ⟨other, fresh⟩ := not_or.1 (mt List.mem_cons.2 fresh)
      rw [put, if_neg (Ne.symm other), ih fresh]
      rfl

/-- Entries with distinct keys are the table that they are written into. -/
theorem ofEntries_eq_self {entries : List (κ × α)} (distinct : (keys entries).Nodup) :
    ofEntries entries = entries := by
  have written : ∀ t : Table κ α, (keys (t ++ entries)).Nodup →
      putAll t entries = t ++ entries := by
    clear distinct
    induction entries with
    | nil => exact fun t _ => (List.append_nil t).symm
    | cons e rest ih =>
        intro t distinct
        have fresh : e.1 ∉ t.keys := by
          rw [keys, List.map_append] at distinct
          exact fun mem => (List.nodup_append.1 distinct).2.2 _ mem _ List.mem_cons_self rfl
        rw [List.append_cons] at distinct ⊢
        rw [putAll, List.foldl_cons, put_of_not_mem fresh]
        exact ih _ distinct
  exact written [] distinct

/-- With distinct keys every entry is the one that is found. -/
theorem get?_eq_some_iff {t : Table κ α} (distinct : t.keys.Nodup) {key : κ} {x : α} :
    get? t key = some x ↔ (key, x) ∈ t := by
  induction t with
  | nil => simp [get?_nil]
  | cons e rest ih =>
      obtain ⟨other, distinct⟩ := List.nodup_cons.1 distinct
      rw [get?_cons, List.mem_cons]
      split
      · next h =>
        have absent : (key, x) ∉ rest := fun mem => other (h ▸ List.mem_map_of_mem mem)
        simp only [absent, or_false, Option.some.injEq, Prod.ext_iff, h, true_and, eq_comm]
      · next h => simp only [ih distinct, Prod.ext_iff, Ne.symm h, false_and, false_or]

end Table

end RowLiteral
