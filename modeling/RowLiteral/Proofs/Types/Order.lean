import RowLiteral.Proofs.Types.Keys

/-!
# Types — the order of entries

What listing does to the order in which a document is written.  Keys are *in key order* when an
array index has only array indices before it, none of them greater (`Text.InKeyOrder`).  Whatever is
listed is in key order, and what is in key order is listed as it is, so that the order of the text
is kept for these keys and for no others.

* `Table.listed_eq_self_iff`: which tables are listed as they are.
* `Document.exists_of_listed_mapping`: a mapping that was loaded is the written one, in key order.
-/

namespace RowLiteral
open Text

/-! ### Keys -/

/-- Keys in the order in which a table lists them. -/
def Text.InKeyOrder (keys : List String) : Prop :=
  keys.Pairwise fun key later => ∀ n ∈ arrayIndex? later, ∃ m ∈ arrayIndex? key, m ≤ n

instance (keys : List String) : Decidable (InKeyOrder keys) :=
  inferInstanceAs (Decidable (List.Pairwise _ keys))

namespace Table

variable {α β : Type}

/-! ### Listing -/

/-- The index decides where an entry is listed. -/
def byIndex (a b : Nat × String × α) : Bool := a.1 ≤ b.1

theorem byIndex_iff {a b : Nat × String × α} : byIndex a b = true ↔ a.1 ≤ b.1 := decide_eq_true_iff

theorem listed_eq (t : Table String α) : listed t =
    ((indexed t).mergeSort byIndex).map Prod.snd ++
      t.filter fun e => (arrayIndex? e.1).isNone := rfl

theorem mem_indexed {t : Table String α} {n : Nat} {e : String × α} :
    (n, e) ∈ indexed t ↔ e ∈ t ∧ arrayIndex? e.1 = some n := by
  simp only [indexed, List.mem_filterMap, Option.map_eq_some_iff, Prod.mk.injEq]
  constructor
  · rintro ⟨_, mem, _, index, rfl, rfl⟩
    exact ⟨mem, index⟩
  · rintro ⟨mem, index⟩
    exact ⟨e, mem, n, index, rfl, rfl⟩

/-- Listing looks at the keys only. -/
theorem listed_map (f : α → β) (t : Table String α) :
    listed (t.map fun e => (e.1, f e.2)) = (listed t).map fun e => (e.1, f e.2) := by
  have moved : indexed (t.map fun e => (e.1, f e.2)) =
      (indexed t).map fun a => (a.1, a.2.1, f a.2.2) := by
    simp only [indexed, List.filterMap_map, List.map_filterMap, Function.comp_def, Option.map_map]
  have sorted : ((indexed t).mergeSort byIndex).map (fun a => (a.1, a.2.1, f a.2.2)) =
      ((indexed t).map fun a => (a.1, a.2.1, f a.2.2)).mergeSort byIndex :=
    List.map_mergeSort fun _ _ _ _ => rfl
  rw [listed_eq, listed_eq, moved, ← sorted, List.map_append, List.map_map, List.map_map,
    List.filter_map]
  rfl

/-- **What is listed is in key order.** -/
theorem inKeyOrder_listed (t : Table String α) : InKeyOrder (listed t).keys := by
  have trans (a b c : Nat × String × α) (ab : byIndex a b = true) (bc : byIndex b c = true) :
      byIndex a c = true := byIndex_iff.2 (Nat.le_trans (byIndex_iff.1 ab) (byIndex_iff.1 bc))
  have total (a b : Nat × String × α) : (byIndex a b || byIndex b a) = true := by
    simp only [Bool.or_eq_true, byIndex_iff, Nat.le_total]
  have sorted := List.pairwise_mergeSort trans total (indexed t)
  have plain : ∀ e ∈ t.filter fun e => (arrayIndex? e.1).isNone, ∀ n, n ∉ arrayIndex? e.1 :=
    fun e mem n index => by
      rw [Option.isNone_iff_eq_none.1 (List.mem_filter.1 mem).2] at index
      cases index
  rw [listed_eq, InKeyOrder, keys, List.pairwise_map, List.pairwise_append]
  refine ⟨List.pairwise_map.2 (sorted.imp_of_mem fun {a b} ha hb le n index => ?_),
    List.pairwise_of_forall_mem_list fun _ _ later mem n index => absurd index (plain later mem n),
    fun _ _ later mem n index => absurd index (plain later mem n)⟩
  -- both entries stand beside their indices
  have ha := (mem_indexed.1 ((List.mergeSort_perm _ _).mem_iff.1 ha)).2
  have hb := (mem_indexed.1 ((List.mergeSort_perm _ _).mem_iff.1 hb)).2
  obtain rfl := Option.some.inj (hb.symm.trans index)
  exact ⟨a.1, ha, byIndex_iff.1 le⟩

/-- In key order the entries under array indices come first. -/
theorem filter_append_filter {t : Table String α} (h : InKeyOrder t.keys) :
    (t.filter fun e => (arrayIndex? e.1).isSome) ++ (t.filter fun e => (arrayIndex? e.1).isNone) =
      t := by
  induction t with
  | nil => rfl
  | cons e rest ih =>
      obtain ⟨first, others⟩ := List.pairwise_cons.1 h
      cases index : arrayIndex? e.1 with
      | some n => simp [index, ih others]
      | none =>
          -- nothing behind another key is an array index
          have none_later : ∀ e' ∈ rest, arrayIndex? e'.1 = none := fun e' mem => by
            refine Option.eq_none_iff_forall_ne_some.2 fun n later => ?_
            obtain ⟨m, earlier, -⟩ := first e'.1 (List.mem_map_of_mem mem) n later
            rw [index] at earlier
            cases earlier
          have head : (rest.filter fun e => (arrayIndex? e.1).isSome) = [] :=
            List.filter_eq_nil_iff.2 fun e' mem => by simp [none_later e' mem]
          have tail : (rest.filter fun e => (arrayIndex? e.1).isNone) = rest :=
            List.filter_eq_self.2 fun e' mem => by simp [none_later e' mem]
          simp [index, head, tail]

/-- **What is in key order is listed as it is.** -/
theorem listed_eq_self {t : Table String α} (h : InKeyOrder t.keys) : listed t = t := by
  have sorted : (indexed t).Pairwise fun a b => byIndex a b = true := by
    refine List.pairwise_filterMap.2 ((List.pairwise_map.1 h).imp fun {e e'} le a ha b hb => ?_)
    obtain ⟨n, index, rfl⟩ := Option.map_eq_some_iff.1 ha
    obtain ⟨n', index', rfl⟩ := Option.map_eq_some_iff.1 hb
    obtain ⟨m, hm, le⟩ := le n' index'
    obtain rfl := Option.some.inj (index.symm.trans hm)
    exact byIndex_iff.2 le
  rw [listed_eq, List.mergeSort_of_pairwise sorted, map_snd_indexed, filter_append_filter h]

/-- Listing keeps the order of keys that are in key order, and of no others. -/
theorem listed_eq_self_iff {t : Table String α} : listed t = t ↔ InKeyOrder t.keys :=
  ⟨fun h => h ▸ inKeyOrder_listed t, listed_eq_self⟩

end Table

/-! ### Documents -/

namespace Document

theorem listedEntries_eq_map (entries : List (String × Document)) :
    listedEntries entries = entries.map fun e => (e.1, e.2.listed) := by
  induction entries with
  | nil => rfl
  | cons e rest ih => rw [listedEntries, ih, List.map_cons]

/-- Where no key is repeated, a mapping keeps its entries, moved to key order. -/
theorem listed_mapping {entries : List (String × Document)}
    (distinct : (Table.keys entries).Nodup) : (mapping entries).listed =
      .mapping ((Table.listed entries).map fun e => (e.1, e.2.listed)) := by
  have same : Table.keys (entries.map fun e => (e.1, e.2.listed)) = Table.keys entries := by
    rw [Table.keys, List.map_map]
    rfl
  rw [listed, ofEntries, listedEntries_eq_map, Table.ofEntries_eq_self (same ▸ distinct),
    Table.listed_map]

/-- What is listed as a mapping is written as one. -/
theorem exists_of_listed_mapping {d : Document} (keyed : d.Keyed)
    {entries : List (String × Document)} (h : d.listed = .mapping entries) :
    ∃ written, d = .mapping written ∧
      entries = (Table.listed written).map fun e => (e.1, e.2.listed) := by
  cases d with
  | mapping written =>
      rw [listed_mapping (keyed_mapping_iff.1 keyed).1] at h
      exact ⟨written, rfl, (mapping.inj h).symm⟩
  | _ => cases h

/-- What is listed as a text is written as that text. -/
theorem eq_text_of_listed {d : Document} {s : String} (h : d.listed = .text s) : d = .text s := by
  cases d with
  | text _ => exact h
  | _ => cases h

/-- An entry that is loaded is a written one with its document listed. -/
theorem exists_of_mem_listed {written : List (String × Document)} {key : String} {x : Document}
    (h : (key, x) ∈ (Table.listed written).map fun e => (e.1, e.2.listed)) :
    ∃ d, (key, d) ∈ written ∧ d.listed = x := by
  obtain ⟨⟨_, d⟩, mem, e⟩ := List.mem_map.1 h
  cases e
  exact ⟨d, (Table.listed_perm written).mem_iff.1 mem, rfl⟩

/-- What is found under a key of a written mapping. -/
theorem get?_mapping {entries : List (String × Document)} (distinct : (Table.keys entries).Nodup)
    {key : String} {d : Document} (mem : (key, d) ∈ entries) :
    (mapping entries).get? key = some d :=
  (Table.get?_eq_some_iff distinct).2 mem

end Document

end RowLiteral
