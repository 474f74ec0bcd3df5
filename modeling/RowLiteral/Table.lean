/-!
# Table

A *table* is a list of entries, one for each key, in the order in which the keys were first written.
Writing a key that is there already replaces its entry and keeps its place.

`get?_put` says what is read after a write, and `get?_ofEntries` that of several entries with one
key the last is read.
-/

namespace RowLiteral

/-- Entries by their keys. -/
abbrev Table (κ α : Type) := List (κ × α)

namespace Table

variable {κ α : Type} [DecidableEq κ]

/-- Writes an entry: in the place of the entry with that key, or else at the end. -/
def put (key : κ) (x : α) : Table κ α → Table κ α
  | [] => [(key, x)]
  | e :: rest => if e.1 = key then (key, x) :: rest else e :: put key x rest

/-- Writes entries one after the other. -/
def putAll (t : Table κ α) (entries : List (κ × α)) : Table κ α :=
  entries.foldl (fun t e => put e.1 e.2 t) t

/-- The table that results from writing entries one after the other. -/
def ofEntries (entries : List (κ × α)) : Table κ α := putAll [] entries

/-- The entry of a key. -/
def get? (t : Table κ α) (key : κ) : Option α := (t.find? fun e => e.1 = key).map Prod.snd

/-- The keys in their order. -/
def keys (t : Table κ α) : List κ := t.map Prod.fst

/-! ### What is read -/

theorem get?_nil (key : κ) : get? ([] : Table κ α) key = none := rfl

theorem get?_cons (e : κ × α) (t : Table κ α) (key : κ) :
    get? (e :: t) key = if e.1 = key then some e.2 else get? t key := by
  by_cases h : e.1 = key <;> simp [get?, h]

theorem get?_put (t : Table κ α) (key key' : κ) (x : α) :
    get? (put key x t) key' = if key = key' then some x else get? t key' := by
  induction t with
  | nil => simp [put, get?_cons, get?_nil]
  | cons e rest ih =>
    unfold put
    split
    · next h => by_cases h' : key = key' <;> simp_all [get?_cons]
    · next h =>
      rw [get?_cons, get?_cons, ih]
      by_cases h' : e.1 = key'
      · have : key ≠ key' := fun k => h (h'.trans k.symm)
        simp [h', this]
      · simp [h']

/-- After several writes the last entry of a key is read, or the table where there is none. -/
theorem get?_putAll (t : Table κ α) (entries : List (κ × α)) (key : κ) :
    get? (putAll t entries) key = (get? entries.reverse key).or (get? t key) := by
  induction entries generalizing t with
  | nil => simp [putAll, get?_nil]
  | cons e rest ih =>
    have step : putAll t (e :: rest) = putAll (put e.1 e.2 t) rest := rfl
    have last : get? (rest.reverse ++ [e]) key = (get? rest.reverse key).or (get? [e] key) := by
      simp [get?, List.find?_append, Option.map_or]
    rw [step, ih, get?_put, List.reverse_cons, last, get?_cons, get?_nil]
    by_cases h : e.1 = key <;> simp [h]

theorem get?_ofEntries (entries : List (κ × α)) (key : κ) :
    get? (ofEntries entries) key = get? entries.reverse key := by
  rw [ofEntries, get?_putAll, get?_nil, Option.or_none]

end Table

end RowLiteral
