namespace Worksheet

/-- An association list in increasing order of its keys, with each key at most once. -/
abbrev Keyed (α : Type) := List (String × α)

namespace Keyed

/-- Sets the value of a key. -/
def insert (key : String) (value : α) : Keyed α → Keyed α
  | [] => [(key, value)]
  | (k, v) :: rest =>
    if key < k then (key, value) :: (k, v) :: rest
    else if key == k then (key, value) :: rest
    else (k, v) :: insert key value rest

def get? (key : String) : Keyed α → Option α
  | [] => none
  | (k, v) :: rest => if key == k then some v else get? key rest

def contains (key : String) (entries : Keyed α) : Bool :=
  (entries.get? key).isSome

/-- Later entries overwrite earlier ones of the same key. -/
def ofList (entries : List (String × α)) : Keyed α :=
  entries.foldl (fun acc (key, value) => acc.insert key value) []

theorem get?_insert_self (key : String) (value : α) (entries : Keyed α) :
    (entries.insert key value).get? key = some value := by
  induction entries with
  | nil => simp [insert, get?]
  | cons e rest ih =>
    obtain ⟨k, v⟩ := e
    rw [insert]
    split
    · simp [get?]
    · split
      · simp [get?]
      · rename_i h
        simp only [get?, ih]
        simp at h
        simp [h]

theorem get?_insert_of_ne {key other : String} (value : α) (entries : Keyed α) (h : other ≠ key) :
    (entries.insert key value).get? other = entries.get? other := by
  induction entries with
  | nil => simp [insert, get?, h]
  | cons e rest ih =>
    obtain ⟨k, v⟩ := e
    rw [insert]
    split
    · simp [get?, h]
    · split
      · rename_i hk
        simp at hk
        subst hk
        simp [get?, h]
      · simp [get?, ih]

end Keyed

end Worksheet
