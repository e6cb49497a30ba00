/-!
# Finite tables

A table gives a value to each of finitely many keys.  Its rows keep the order in which their keys
were first written; the view of a table is `get?`, and no law of this library hangs on the order of
the rows.
-/

namespace AccessControl

/-- Rows with distinct keys. -/
structure Table (κ : Type) (α : Type) where
  rows : List (κ × α)
  nodup : (rows.map Prod.fst).Nodup

namespace Table

variable {κ α : Type}

instance [DecidableEq κ] [DecidableEq α] : DecidableEq (Table κ α) := fun left right =>
  if h : left.rows = right.rows then
    isTrue (by
      cases left
      cases right
      simp_all)
  else isFalse fun h' => h (h' ▸ rfl)

@[ext] theorem ext_rows {left right : Table κ α} (h : left.rows = right.rows) : left = right := by
  cases left
  cases right
  simp_all

/-- The table without rows. -/
def empty : Table κ α := ⟨[], List.nodup_nil⟩

instance : EmptyCollection (Table κ α) := ⟨empty⟩

instance : Inhabited (Table κ α) := ⟨empty⟩

/-- The keys, in the order of the rows. -/
def keys (table : Table κ α) : List κ := table.rows.map Prod.fst

/-- The values, in the order of the rows. -/
def values (table : Table κ α) : List α := table.rows.map Prod.snd

variable [DecidableEq κ]

/-- The value of `key` in a list of rows. -/
def find? (key : κ) : List (κ × α) → Option α
  | [] => none
  | (other, value) :: rest => if key = other then some value else find? key rest

/-- The rows with `value` at `key`: in its place if the key is there, and else at the end. -/
def write (key : κ) (value : α) : List (κ × α) → List (κ × α)
  | [] => [(key, value)]
  | (other, old) :: rest =>
    if key = other then (key, value) :: rest else (other, old) :: write key value rest

/-- The value of `key`, if it has one. -/
def get? (table : Table κ α) (key : κ) : Option α := find? key table.rows

/-- Whether `key` has a value. -/
def contains (table : Table κ α) (key : κ) : Bool := (table.get? key).isSome

theorem mem_keys_write {key other : κ} {value : α} {rows : List (κ × α)} :
    other ∈ (write key value rows).map Prod.fst ↔ other = key ∨ other ∈ rows.map Prod.fst := by
  induction rows with
  | nil => simp [write]
  | cons row rest ih =>
    obtain ⟨name, old⟩ := row
    by_cases h : key = name
    · subst h
      simp [write]
    · simp only [write, if_neg h, List.map_cons, List.mem_cons, ih]
      grind

theorem nodup_write {key : κ} {value : α} {rows : List (κ × α)}
    (h : (rows.map Prod.fst).Nodup) : ((write key value rows).map Prod.fst).Nodup := by
  induction rows with
  | nil => simp [write]
  | cons row rest ih =>
    obtain ⟨name, old⟩ := row
    simp only [List.map_cons, List.nodup_cons] at h
    by_cases hk : key = name
    · subst hk
      simpa [write] using h
    · simp only [write, if_neg hk, List.map_cons, List.nodup_cons, mem_keys_write]
      exact ⟨fun hm => hm.elim (fun he => hk he.symm) h.1, ih h.2⟩

/-- The table with `value` at `key`. -/
def insert (table : Table κ α) (key : κ) (value : α) : Table κ α :=
  ⟨write key value table.rows, nodup_write table.nodup⟩

/-- The table of the rows that `keep` accepts. -/
def filter (table : Table κ α) (keep : κ → α → Bool) : Table κ α :=
  ⟨table.rows.filter fun row => keep row.1 row.2,
    table.nodup.sublist (List.Sublist.map Prod.fst List.filter_sublist)⟩

/-- The table without `key`. -/
def erase (table : Table κ α) (key : κ) : Table κ α :=
  table.filter fun other _ => other ≠ key

/-- The table of a list of rows, the last row of a key giving its value. -/
def ofList (rows : List (κ × α)) : Table κ α :=
  rows.foldl (fun table row => table.insert row.1 row.2) empty

@[simp] theorem get?_empty (key : κ) : (∅ : Table κ α).get? key = none := rfl

theorem find?_write {key other : κ} {value : α} {rows : List (κ × α)} :
    find? other (write key value rows) = if other = key then some value else find? other rows := by
  induction rows with
  | nil => simp [write, find?]
  | cons row rest ih =>
    obtain ⟨name, old⟩ := row
    by_cases h : key = name
    · subst h
      by_cases ho : other = key <;> simp [write, find?, ho]
    · by_cases ho : other = name
      · subst ho
        have hne : other ≠ key := fun he => h he.symm
        simp [write, find?, h, hne]
      · simp [write, find?, h, ho, ih]

@[simp] theorem get?_insert {table : Table κ α} {key other : κ} {value : α} :
    (table.insert key value).get? other = if other = key then some value else table.get? other :=
  find?_write

theorem find?_eq_none {key : κ} {rows : List (κ × α)} :
    find? key rows = none ↔ key ∉ rows.map Prod.fst := by
  induction rows with
  | nil => simp [find?]
  | cons row rest ih =>
    obtain ⟨name, old⟩ := row
    by_cases h : key = name <;> simp [find?, h, ih]

theorem find?_filter {key : κ} {keep : κ → α → Bool} {rows : List (κ × α)}
    (h : (rows.map Prod.fst).Nodup) :
    find? key (rows.filter fun row => keep row.1 row.2) = (find? key rows).filter (keep key) := by
  induction rows with
  | nil => simp [find?]
  | cons row rest ih =>
    obtain ⟨name, old⟩ := row
    simp only [List.map_cons, List.nodup_cons] at h
    have ih := ih h.2
    by_cases hk : key = name
    · subst hk
      have habsent : find? key rest = none := find?_eq_none.2 h.1
      cases hp : keep key old with
      | true => simp [List.filter, hp, find?, Option.filter_some]
      | false =>
        rw [habsent] at ih
        simpa [List.filter, hp, find?, Option.filter_some] using ih
    · cases hp : keep name old <;> simp [List.filter, hp, find?, hk, ih]

@[simp] theorem get?_filter {table : Table κ α} {keep : κ → α → Bool} {key : κ} :
    (table.filter keep).get? key = (table.get? key).filter (keep key) :=
  find?_filter table.nodup

@[simp] theorem get?_erase {table : Table κ α} {key other : κ} :
    (table.erase key).get? other = if other = key then none else table.get? other := by
  rw [erase, get?_filter]
  by_cases h : other = key
  · simp [h, Option.filter]
    cases table.get? key <;> rfl
  · cases hg : table.get? other <;> simp [h, Option.filter]

theorem mem_rows_iff {table : Table κ α} {key : κ} {value : α} :
    (key, value) ∈ table.rows ↔ table.get? key = some value := by
  obtain ⟨rows, nodup⟩ := table
  simp only [get?]
  induction rows with
  | nil => simp [find?]
  | cons row rest ih =>
    obtain ⟨name, old⟩ := row
    simp only [List.map_cons, List.nodup_cons] at nodup
    by_cases h : key = name
    · subst h
      have habsent : (key, value) ∉ rest := fun hm =>
        nodup.1 (List.mem_map_of_mem (f := Prod.fst) hm)
      simp [find?, habsent, eq_comm]
    · simp [find?, h, ih nodup.2]

end Table

end AccessControl
