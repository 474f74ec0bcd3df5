import RowLiteral.Proofs.Registry.Runs

/-!
# Registry — independent definitions

A definition reads little of a registry: the catalog, what stands under its own name, and whether
the names are registered by which alone its columns are typed (`RowTypeDefinition.LooksUp`).  It
changes no more than what stands under its own name.  So two definitions of different names, neither
of which looks the other's name up, do not touch each other (`RowTypeDefinition.Independent`), and
neither do any number of definitions that are independent of each other: each is answered as if it
were made first (`Registry.answer_foldl`), whether it finds its name, adds a row type or fails.

* `Registry.independent_comm`: two independent definitions commute.
* `Registry.foldl_perm`: any number of them can be made in any order.
-/

namespace RowLiteral

namespace RowTypeDefinition

/-- Whether a column of the definition is typed by this name alone. -/
def LooksUp (d : RowTypeDefinition) (name : String) : Prop :=
  ∃ column ∈ d.columns, column.typeId = none ∧ column.typeName = some name

instance (d : RowTypeDefinition) (name : String) : Decidable (d.LooksUp name) :=
  inferInstanceAs
    (Decidable (∃ column ∈ d.columns, column.typeId = none ∧ column.typeName = some name))

/-- Definitions of different names, neither of which looks the name of the other up. -/
structure Independent (a b : RowTypeDefinition) : Prop where
  names_ne : a.name ≠ b.name
  left : ¬ a.LooksUp b.name
  right : ¬ b.LooksUp a.name

theorem Independent.symm {a b : RowTypeDefinition} (h : a.Independent b) : b.Independent a :=
  ⟨h.names_ne.symm, h.right, h.left⟩

end RowTypeDefinition

namespace Registry

variable {r r' : Registry} {a b d : RowTypeDefinition} {name : String}

/-! ### What a definition reads -/

theorem column_congr (catalog : r.catalog = r'.catalog) {rowType : String} {d : ColumnDefinition}
    (same : ∀ n, d.typeId = none → d.typeName = some n → r.has n = r'.has n) :
    r.column rowType d = r'.column rowType d := by
  obtain ⟨_, typeName, id⟩ := d
  match typeName, id with
  | some _, some _ | none, none => rfl
  | some n, none => simp only [column, typeId?, same n rfl rfl, catalog]
  | none, some _ => simp only [column, catalog]

theorem rowType_congr (catalog : r.catalog = r'.catalog)
    (same : ∀ n, d.LooksUp n → r.has n = r'.has n) :
    r.rowType d.name d.columns = r'.rowType d.name d.columns := by
  rw [rowType, rowType, mapM_congr fun column mem => column_congr catalog fun n alone named =>
    same n ⟨column, mem, alone, named⟩]

theorem answer_eq (r : Registry) (d : RowTypeDefinition) : r.answer d =
    match r.get? d.name with
    | some t => .ok t
    | none => r.rowType d.name d.columns := by
  rw [answer, define]
  cases r.get? d.name with
  | some t => rfl
  | none => cases r.rowType d.name d.columns <;> rfl

/-- **What a definition is answered** depends on the catalog, on what stands under its name, and on
which of the names that it looks up are registered. -/
theorem answer_congr (catalog : r.catalog = r'.catalog) (own : r.get? d.name = r'.get? d.name)
    (same : ∀ n, d.LooksUp n → r.has n = r'.has n) : r.answer d = r'.answer d := by
  rw [answer_eq, answer_eq, own, rowType_congr catalog same]

/-! ### What a definition changes -/

/-- The row type that a definition adds. -/
def added (r : Registry) (d : RowTypeDefinition) : List RowType :=
  match r.get? d.name with
  | some _ => []
  | none => (r.answer d).toOption.toList

theorem types_after (r : Registry) (d : RowTypeDefinition) :
    (r.after d).types = r.types ++ r.added d := by
  rw [added]
  rcases r.after_cases d with ⟨e, refused, same⟩ | ⟨t, -, found, same⟩ | ⟨t, answered, adds, more⟩
  · rw [same, refused]
    cases r.get? d.name <;> exact (List.append_nil _).symm
  · rw [same, found]
    exact (List.append_nil _).symm
  · rw [more, get?_eq_none_iff.2 adds.fresh, answered]
    rfl

theorem name_of_mem_added {t : RowType} (h : t ∈ r.added d) : t.name = d.name := by
  rw [added] at h
  rcases r.after_cases d with ⟨e, refused, -⟩ | ⟨u, -, found, -⟩ | ⟨u, answered, adds, -⟩
  · rw [refused] at h
    cases found : r.get? d.name <;> rw [found] at h <;> cases h
  · rw [found] at h
    cases h
  · rw [get?_eq_none_iff.2 adds.fresh, answered] at h
    rw [List.mem_singleton.1 h]
    exact adds.name_eq

/-- **What is found under another name stays.** -/
theorem get?_after_of_ne (h : d.name ≠ name) : (r.after d).get? name = r.get? name := by
  have absent : (r.added d).find? (fun t => t.name = name) = none :=
    List.find?_eq_none.2 fun t mem => by simp [name_of_mem_added mem, h]
  rw [get?, types_after, List.find?_append, absent, Option.or_none, ← get?]

/-- Under its own name the answer of a definition is found. -/
theorem get?_after_self (r : Registry) (d : RowTypeDefinition) :
    (r.after d).get? d.name = (r.answer d).toOption := by
  cases answered : r.answer d with
  | ok t => exact get?_after_of_answer answered
  | error e =>
      rcases r.after_cases d with ⟨_, -, same⟩ | ⟨t, granted, -⟩ | ⟨t, granted, -⟩
      · rw [same]
        cases found : r.get? d.name with
        | none => rfl
        | some t => rw [answer_eq, found] at answered; cases answered
      · exact nomatch answered.symm.trans granted
      · exact nomatch answered.symm.trans granted

/-- A definition is answered alike before and after one that it is independent of. -/
theorem answer_after (h : a.Independent b) : (r.after a).answer b = r.answer b := by
  refine answer_congr (r.catalog_after a) (get?_after_of_ne h.names_ne) fun n looked => ?_
  have other : a.name ≠ n := fun e => h.right (e ▸ looked)
  rw [has, get?_after_of_ne other, has]

theorem added_after (h : a.Independent b) : (r.after a).added b = r.added b := by
  rw [added, added, get?_after_of_ne h.names_ne, answer_after h]

/-! ### Any number of definitions -/

variable {ds es : List RowTypeDefinition}

theorem catalog_foldl (r : Registry) (ds : List RowTypeDefinition) :
    (ds.foldl after r).catalog = r.catalog := by
  induction ds generalizing r with
  | nil => rfl
  | cons a ds ih => rw [List.foldl_cons, ih, catalog_after]

/-- **A definition is answered as if it were made first**, whatever is defined before it that it is
independent of. -/
theorem answer_foldl (h : ∀ a ∈ ds, a.Independent d) : (ds.foldl after r).answer d = r.answer d := by
  induction ds generalizing r with
  | nil => rfl
  | cons a ds ih =>
      obtain ⟨first, rest⟩ := List.forall_mem_cons.1 h
      rw [List.foldl_cons, ih rest, answer_after first]

/-- Independent definitions add what each adds by itself. -/
theorem types_foldl (h : ds.Pairwise RowTypeDefinition.Independent) :
    (ds.foldl after r).types = r.types ++ ds.flatMap r.added := by
  induction ds generalizing r with
  | nil => exact (List.append_nil r.types).symm
  | cons a ds ih =>
      obtain ⟨first, rest⟩ := List.pairwise_cons.1 h
      have kept : ds.flatMap (r.after a).added = ds.flatMap r.added :=
        List.flatMap_congr fun b mem => added_after (first b mem)
      rw [List.foldl_cons, ih rest, types_after, kept, List.flatMap_cons, List.append_assoc]

theorem get?_foldl_of_ne (h : ∀ d ∈ ds, d.name ≠ name) :
    (ds.foldl after r).get? name = r.get? name := by
  induction ds generalizing r with
  | nil => rfl
  | cons a ds ih =>
      obtain ⟨first, rest⟩ := List.forall_mem_cons.1 h
      rw [List.foldl_cons, ih rest, get?_after_of_ne first]

/-- After independent definitions the answer of each is found under its name. -/
theorem get?_foldl_of_mem (h : ds.Pairwise RowTypeDefinition.Independent) (mem : d ∈ ds) :
    (ds.foldl after r).get? d.name = (r.answer d).toOption := by
  induction ds generalizing r with
  | nil => cases mem
  | cons a ds ih =>
      obtain ⟨first, rest⟩ := List.pairwise_cons.1 h
      rw [List.foldl_cons]
      rcases List.mem_cons.1 mem with rfl | mem
      · rw [get?_foldl_of_ne fun b hb => (first b hb).names_ne.symm, get?_after_self]
      · rw [ih rest mem, answer_after (first d mem)]

/-- **Independent definitions can be made in any order**: the same is found under every name, and
the same row types are there, each once. -/
theorem foldl_perm (h : ds.Pairwise RowTypeDefinition.Independent) (moved : ds.Perm es) :
    (ds.foldl after r).catalog = (es.foldl after r).catalog ∧
      (∀ name, (ds.foldl after r).get? name = (es.foldl after r).get? name) ∧
      (ds.foldl after r).types.Perm (es.foldl after r).types := by
  have h' : es.Pairwise RowTypeDefinition.Independent :=
    (moved.pairwise_iff fun independent => independent.symm).1 h
  refine ⟨by rw [catalog_foldl, catalog_foldl], fun name => ?_, ?_⟩
  · by_cases defined : ∃ d ∈ ds, d.name = name
    · obtain ⟨d, mem, rfl⟩ := defined
      rw [get?_foldl_of_mem h mem, get?_foldl_of_mem h' (moved.mem_iff.1 mem)]
    · have others : ∀ d ∈ ds, d.name ≠ name := fun d mem e => defined ⟨d, mem, e⟩
      rw [get?_foldl_of_ne others, get?_foldl_of_ne fun d mem => others d (moved.mem_iff.2 mem)]
  · rw [types_foldl h, types_foldl h']
    exact (moved.flatMap_right r.added).append_left r.types

/-- **Independent definitions commute.**  For every registry, reached by a run or not, and any
catalog, and for two definitions of different names, neither of which has a column that is typed by
the name of the other alone: each is answered alike, with the same row type or the same error,
before and after the other, and whichever comes first, the same row type is found under every name,
the same names are registered, and only the order of the names may differ. -/
theorem independent_comm (r : Registry) {a b : RowTypeDefinition} (h : a.Independent b) :
    (r.after b).answer a = r.answer a ∧ (r.after a).answer b = r.answer b ∧
      ((r.after a).after b).catalog = ((r.after b).after a).catalog ∧
      (∀ name, ((r.after a).after b).get? name = ((r.after b).after a).get? name ∧
        ((r.after a).after b).has name = ((r.after b).after a).has name) ∧
      ((r.after a).after b).names.Perm ((r.after b).after a).names := by
  have pair : [a, b].Pairwise RowTypeDefinition.Independent := List.pairwise_pair.2 h
  obtain ⟨catalog, found, types⟩ := foldl_perm (r := r) pair (.swap b a [])
  exact ⟨answer_after h.symm, answer_after h, catalog,
    fun name => ⟨found name, congrArg Option.isSome (found name)⟩, types.map RowType.name⟩

/-- A row type with a column that is typed by a name alone, and one that is typed by a name and a
number. -/
def stockDefinition : RowTypeDefinition :=
  ⟨"stock", [⟨"item", some "item", none⟩, ⟨"lost", some "lost", some ColumnType.record.id⟩]⟩

theorem independent_comm_stock :
    stockDefinition.Independent lostDefinition ∧
      (((run .builtin [itemDefinition]).after lostDefinition).answer stockDefinition =
        .ok ⟨"stock", [⟨"item", "item", ColumnType.record.id⟩,
          ⟨"lost", "lost", ColumnType.record.id⟩]⟩) ∧
      ((run .builtin [itemDefinition]).after stockDefinition).answer lostDefinition =
        .error (.unknownTypeName "absent" "place" "lost") ∧
      (((run .builtin [itemDefinition]).after stockDefinition).after lostDefinition).get? "item" =
        some ⟨"item", [⟨"name", "text", ColumnType.text.id⟩]⟩ := by
  have independent : stockDefinition.Independent lostDefinition :=
    ⟨by decide, by decide, by decide⟩
  obtain ⟨stock, lost, -, found, -⟩ := independent_comm (run .builtin [itemDefinition]) independent
  refine ⟨independent, ?_, ?_, ?_⟩
  · rw [stock]; decide +kernel
  · rw [lost]; decide +kernel
  · rw [(found "item").1]; decide +kernel

/-- Definitions that look each other's names up do not commute. -/
example : ((empty .builtin).after itemDefinition).answer stockDefinition ≠
    (empty .builtin).answer stockDefinition := by decide +kernel

end Registry

end RowLiteral
