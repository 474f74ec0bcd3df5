import RowLiteral.Proofs.Codec.Opening
import RowLiteral.Proofs.Codec.Recursion
import RowLiteral.Proofs.Registry.Independent

/-!
# Codec — the row types that a literal is read with

Reading a literal as a row of a type asks the registry for the types of its columns, and for those
of the columns of the row types that it finds in this way.  A row type is *reached* from another
when it is found along such columns, however often (`Codec.Reaches`); the columns may lead in a
circle.  Two codecs that find the same row types for the columns of all that is reached read every
literal alike (`Codec.Agrees.parse_eq`), by the same steps (`Codec.Agrees.reads_iff`).

A definition changes what is found under its own name only.  If no column of what is reached has
that name for its type, then nothing else is found for these columns, whether the definition
succeeds or not, and the same row types are reached.

* `Codec.parse_after`: a definition that nothing reached mentions leaves the reading of every
  literal as it was.
* `Codec.parse_foldl_after`: so do any number of definitions, one after the other.
-/

namespace RowLiteral
open Text Literal

namespace Codec

variable {c c' : Codec} {t u v : RowType} {column : Column}

/-! ### What is reached -/

/-- The row types that are found from a row type along columns of registered row types. -/
inductive Reaches (c : Codec) (t : RowType) : RowType → Prop where
  | self : Reaches c t t
  | step {u v : RowType} {column : Column} (reached : Reaches c t u) (mem : column ∈ u.columns)
      (type : c.nested? (some column) = some v) : Reaches c t v

/-- The columns of the row types that are reached. -/
def ReachesColumn (c : Codec) (t : RowType) (column : Column) : Prop :=
  ∃ u, c.Reaches t u ∧ column ∈ u.columns

/-- Whether a column of rows that is reached has the type of this name. -/
def Mentions (c : Codec) (t : RowType) (name : String) : Prop :=
  ∃ column, c.ReachesColumn t column ∧ column.typeId = ColumnType.record.id ∧
    column.typeName = name

theorem ReachesColumn.reaches (h : c.ReachesColumn t column)
    (type : c.nested? (some column) = some v) : c.Reaches t v := by
  obtain ⟨u, reached, mem⟩ := h
  exact .step reached mem type

/-- Row types whose columns lead to each other only are all that is reached from them. -/
theorem Reaches.mem_of_closed {types : List RowType} (h : c.Reaches t u) (mem : t ∈ types)
    (closed : ∀ u ∈ types, ∀ column ∈ u.columns, ∀ v ∈ c.nested? (some column), v ∈ types) :
    u ∈ types := by
  induction h with
  | self => exact mem
  | step _ column type ih => exact closed _ ih _ column _ type

/-- Two codecs with one session that find the same row types for all columns that the first of them
reaches. -/
structure Agrees (c c' : Codec) (t : RowType) : Prop where
  session : c'.session = c.session
  nested : ∀ column, c.ReachesColumn t column →
    c'.nested? (some column) = c.nested? (some column)

namespace Agrees

/-- Codecs that agree reach the same row types. -/
theorem reaches_iff (h : c.Agrees c' t) : c'.Reaches t u ↔ c.Reaches t u := by
  constructor
  · intro reached
    induction reached with
    | self => exact .self
    | step _ mem type ih => exact .step ih mem ((h.nested _ ⟨_, ih, mem⟩).symm.trans type)
  · intro reached
    induction reached with
    | self => exact .self
    | step reached mem type ih => exact .step ih mem ((h.nested _ ⟨_, reached, mem⟩).trans type)

theorem reachesColumn_iff (h : c.Agrees c' t) :
    c'.ReachesColumn t column ↔ c.ReachesColumn t column := by
  simp only [ReachesColumn, h.reaches_iff]

theorem mentions_iff (h : c.Agrees c' t) {name : String} :
    c'.Mentions t name ↔ c.Mentions t name := by
  simp only [Mentions, h.reachesColumn_iff]

theorem symm (h : c.Agrees c' t) : c'.Agrees c t where
  session := h.session.symm
  nested column reached := (h.nested column (h.reachesColumn_iff.1 reached)).symm

/-- What is found for the column at a place where one that is reached may stand. -/
theorem nested?_eq (h : c.Agrees c' t) {place : Option Column}
    (inside : ∀ column ∈ place, c.ReachesColumn t column) : c'.nested? place = c.nested? place := by
  cases place with
  | none => rfl
  | some column => exact h.nested column (inside column rfl)

end Agrees

theorem Reaches.of_nested? {place : Option Column}
    (inside : ∀ column ∈ place, c.ReachesColumn t column) (type : c.nested? place = some v) :
    c.Reaches t v := by
  cases place with
  | none => cases type
  | some column => exact (inside column rfl).reaches type

/-! ### What a literal is read with -/

namespace Agrees

/-- **A literal is read with what is reached.**  Codecs that agree on it read every literal alike,
with the same row types at every depth and with the same report. -/
theorem parse_eq {u : RowType} (h : c.Agrees c' t) (reached : c.Reaches t u) (literal : String) :
    c'.parse u literal = c.parse u literal := by
  rw [parse, parse, h.session]
  refine congrArg (fun field : Nat → { token // token ∈ scanRow literal } → Logged Attribute =>
    let raw := Logged.collect ((scanRow literal).attach.mapIdx field)
    let row := c.session.materialize u raw.value
    (⟨row.value, raw.entries ++ parsedReport u literal :: row.entries⟩ : Logged Row))
    (funext fun i => funext fun token => ?_)
  obtain ⟨token, mem⟩ := token
  have inside : ∀ column ∈ u.columns[i]?, c.ReachesColumn t column :=
    fun column stands => ⟨u, reached, List.mem_of_getElem? stands⟩
  cases token with
  | none => rfl
  | some text =>
      have shorter : text.length < literal.length := length_lt_of_mem_scan mem
      simp only [h.nested?_eq inside]
      cases type : c.nested? u.columns[i]? with
      | none => rfl
      | some v => simp only [h.parse_eq (.of_nested? inside type) text]
termination_by literal.length

mutual
/-- A reading is one of the other codec too. -/
theorem reads {u : RowType} {literal : String} {r : Row} {n : Nat} (h : c.Agrees c' t)
    (reached : c.Reaches t u) : c.Reads u literal r n → c'.Reads u literal r n
  | .row parts => by
      rw [← h.session]
      exact .row (h.readsTokens (fun column mem => ⟨u, reached, mem⟩) parts)

theorem readsTokens {columns : List Column} {tokens : List (Option String)} {raw : List Attribute}
    {n : Nat} (h : c.Agrees c' t) (inside : ∀ column ∈ columns, c.ReachesColumn t column) :
    c.ReadsTokens columns tokens raw n → c'.ReadsTokens columns tokens raw n
  | .nil columns => .nil columns
  | .null rest => .null (h.readsTokens (fun x mem => inside x (List.mem_of_mem_tail mem)) rest)
  | .text plain rest =>
      have first := fun x stands => inside x (List.mem_of_mem_head? stands)
      .text ((h.nested?_eq first).trans plain)
        (h.readsTokens (fun x mem => inside x (List.mem_of_mem_tail mem)) rest)
  | .nested type row rest =>
      have first := fun x stands => inside x (List.mem_of_mem_head? stands)
      .nested ((h.nested?_eq first).trans type) (h.reads (.of_nested? first type) row)
        (h.readsTokens (fun x mem => inside x (List.mem_of_mem_tail mem)) rest)
end

/-- **Codecs that agree read by the same steps.** -/
theorem reads_iff (h : c.Agrees c' t) (reached : c.Reaches t u) {literal : String} {r : Row}
    {n : Nat} : c'.Reads u literal r n ↔ c.Reads u literal r n :=
  ⟨h.symm.reads (h.reaches_iff.2 reached), h.reads reached⟩

end Agrees

/-! ### Definitions -/

/-- The codec after a definition. -/
def after (c : Codec) (d : RowTypeDefinition) : Codec := (c.define d.name d.columns).value.2

variable {d : RowTypeDefinition}

theorem after_eq (c : Codec) (d : RowTypeDefinition) :
    c.after d = { c with registry := c.registry.after d } := rfl

/-- What is found for a column stays, unless its type goes by the name that is defined. -/
theorem nested?_after (other : column.typeId = ColumnType.record.id → column.typeName ≠ d.name) :
    (c.after d).nested? (some column) = c.nested? (some column) := by
  rw [after_eq, nested?, nested?]
  split
  · next rows => exact Registry.get?_after_of_ne (other rows).symm
  · rfl

/-- **A definition is out of reach** of a row type from which its name is not mentioned. -/
theorem agrees_after (apart : ¬ c.Mentions t d.name) : c.Agrees (c.after d) t where
  session := by rw [after_eq]
  nested column reached := nested?_after fun rows named => apart ⟨column, reached, rows, named⟩

/-- Any number of definitions of names that are not mentioned leave the reading of a literal as it
was. -/
theorem parse_foldl_after {ds : List RowTypeDefinition} (apart : ∀ d ∈ ds, ¬ c.Mentions t d.name)
    (literal : String) : (ds.foldl after c).parse t literal = c.parse t literal := by
  induction ds generalizing c with
  | nil => rfl
  | cons d ds ih =>
      obtain ⟨first, rest⟩ := List.forall_mem_cons.1 apart
      have agrees := agrees_after first
      rw [List.foldl_cons, ih fun d' mem mentioned => rest d' mem (agrees.mentions_iff.1 mentioned)]
      exact agrees.parse_eq .self literal

/-- **A definition does not disturb the reading of others.**  For every codec, every row type and
every definition, which may succeed, find its name or fail: if no column of rows has the name of the
definition for its type, neither in the row type nor in any that is reached from it, then

* a name that stood for the row type still does, and all row types keep their places;
* the same row types are reached;
* every literal is read alike as the row type and as any that is reached, by the same steps, with
  the same attributes and the same row types at every depth and with the same report. -/
theorem parse_after (c : Codec) (d : RowTypeDefinition) {t : RowType}
    (apart : ¬ c.Mentions t d.name) :
    (∀ name, c.rowType name = .ok t → (c.after d).rowType name = .ok t) ∧
      (∀ name i, c.registry.place? name = some i → (c.after d).registry.place? name = some i) ∧
      (∀ u, (c.after d).Reaches t u ↔ c.Reaches t u) ∧
      ∀ u, c.Reaches t u → ∀ literal,
        (∀ r n, (c.after d).Reads u literal r n ↔ c.Reads u literal r n) ∧
        (c.after d).parse u literal = c.parse u literal ∧
        (c.after d).readRecord u literal = c.readRecord u literal := by
  have agrees := agrees_after apart
  have kept : c.registry.types <+: (c.after d).registry.types := by
    rw [after_eq]
    exact Registry.types_prefix_after c.registry d
  refine ⟨fun name found => ?_, fun name i => Registry.place?_mono kept,
    fun u => agrees.reaches_iff, fun u reached literal => ?_⟩
  · rw [rowType_eq_ok_iff] at found ⊢
    exact Registry.get?_mono kept found
  · have same := agrees.parse_eq reached literal
    exact ⟨fun r n => agrees.reads_iff reached, same, by rw [readRecord, same, readRecord]⟩

/-- From a node only nodes are reached. -/
theorem eq_node_of_reaches (h : ofNodes.Reaches node u) : u = node :=
  List.mem_singleton.1 (h.mem_of_closed List.mem_cons_self (by decide))

theorem parse_after_item :
    ¬ ofNodes.Mentions node Registry.itemDefinition.name ∧
      (ofNodes.after Registry.itemDefinition).registry.names = ["node", "item"] ∧
      (ofNodes.after Registry.itemDefinition).rowType "node" = .ok node ∧
      (ofNodes.after Registry.itemDefinition).parse node chain = ofNodes.parse node chain := by
  have apart : ¬ ofNodes.Mentions node Registry.itemDefinition.name := by
    rintro ⟨column, ⟨u, reached, mem⟩, -, named⟩
    rw [eq_node_of_reaches reached] at mem
    revert column
    decide
  obtain ⟨found, -, -, same⟩ := parse_after ofNodes Registry.itemDefinition apart
  exact ⟨apart, by decide +kernel, found "node" (by decide), (same node .self chain).2.1⟩

/-- A column of rows may wait for its type: once that is defined, a token in it is read as a row. -/
example :
    let shelf : RowType := ⟨"shelf", [⟨"item", "item", ColumnType.record.id⟩]⟩
    let kinds (c : Codec) := (c.parse shelf "(x)").value.attributes.map (Option.map Value.kind)
    kinds ofNodes = [some .text] ∧
      kinds (ofNodes.after Registry.itemDefinition) = [some .composite] := by
  decide +kernel

end Codec

end RowLiteral
