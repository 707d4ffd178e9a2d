/-!
# Tables

A table holds at most one value for each key and lists its entries in the order in which the keys
came in. `get?_insert` and `get?_erase` say what an operation does to the value of each key.
-/

namespace ReliableDatagrams

/-- Values by key, in the order in which the keys were first inserted. -/
structure Table (κ α : Type) where
  entries : List (κ × α) := []
deriving DecidableEq, Repr, Inhabited

namespace Table

variable {κ α : Type} [DecidableEq κ]

def empty : Table κ α := {}

def lookup (key : κ) : List (κ × α) → Option α
  | [] => none
  | (other, value) :: rest => if other = key then some value else lookup key rest

/-- The entries with a value put in place of the key's, or at the end. -/
def put (key : κ) (value : α) : List (κ × α) → List (κ × α)
  | [] => [(key, value)]
  | entry :: rest => if entry.1 = key then (key, value) :: rest else entry :: put key value rest

def get? (table : Table κ α) (key : κ) : Option α :=
  lookup key table.entries

def contains (table : Table κ α) (key : κ) : Bool :=
  (table.get? key).isSome

/-- Files a value under a key, in place of the one that is there. -/
def insert (table : Table κ α) (key : κ) (value : α) : Table κ α :=
  ⟨put key value table.entries⟩

def erase (table : Table κ α) (key : κ) : Table κ α :=
  ⟨table.entries.filter fun entry => entry.1 ≠ key⟩

def keys (table : Table κ α) : List κ :=
  table.entries.map Prod.fst

def values (table : Table κ α) : List α :=
  table.entries.map Prod.snd

def size (table : Table κ α) : Nat :=
  table.entries.length

@[simp] theorem get?_empty (key : κ) : (empty : Table κ α).get? key = none := rfl

theorem get?_insert (table : Table κ α) (key other : κ) (value : α) :
    (table.insert key value).get? other = if key = other then some value else table.get? other := by
  simp only [get?, insert]
  induction table.entries with
  | nil => rfl
  | cons entry rest ih =>
    by_cases h : entry.1 = key
    · by_cases hk : key = other <;> simp [put, lookup, h, hk]
    · by_cases ho : entry.1 = other
      · subst ho
        have : ¬ key = entry.1 := fun hk => h hk.symm
        simp [put, lookup, h, this]
      · simp [put, lookup, h, ho, ih]

theorem get?_erase (table : Table κ α) (key other : κ) :
    (table.erase key).get? other = if key = other then none else table.get? other := by
  simp only [get?, erase]
  induction table.entries with
  | nil => simp [lookup]
  | cons entry rest ih =>
    by_cases h : entry.1 = key
    · by_cases hk : key = other
      · simpa [List.filter_cons, lookup, h, hk] using ih
      · simpa [List.filter_cons, lookup, h, hk] using ih
    · by_cases ho : entry.1 = other
      · subst ho
        have : ¬ key = entry.1 := fun hk => h hk.symm
        simp [lookup, h, this]
      · simpa [List.filter_cons, lookup, h, ho] using ih

theorem mem_of_lookup {key : κ} {value : α} {entries : List (κ × α)}
    (h : lookup key entries = some value) : (key, value) ∈ entries := by
  induction entries with
  | nil => cases h
  | cons entry rest ih =>
    rw [lookup] at h
    split at h
    · rename_i hkey
      cases h
      exact hkey ▸ List.mem_cons_self
    · exact List.mem_cons_of_mem _ (ih h)

end Table

end ReliableDatagrams
