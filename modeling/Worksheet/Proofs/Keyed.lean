import Mathlib.Data.String.Basic
import Worksheet.Keyed

namespace Worksheet.Keyed

variable {α : Type} {entries : Keyed α} {key : String} {value : α}

/-- The keys increase. -/
def Sorted (entries : Keyed α) : Prop :=
  entries.Pairwise fun a b => a.1 < b.1

theorem mem_of_get? (h : entries.get? key = some value) : (key, value) ∈ entries := by
  induction entries with
  | nil => cases h
  | cons e rest ih =>
    obtain ⟨k, v⟩ := e
    rw [get?] at h
    split at h
    · rename_i hk
      obtain rfl := eq_of_beq hk
      obtain rfl := Option.some.inj h
      exact List.mem_cons_self
    · exact List.mem_cons_of_mem _ (ih h)

theorem mem_of_mem_insert {e : String × α} (h : e ∈ entries.insert key value) :
    e = (key, value) ∨ e ∈ entries := by
  induction entries with
  | nil => exact Or.inl (List.mem_singleton.1 h)
  | cons f rest ih =>
    obtain ⟨k, v⟩ := f
    rw [insert] at h
    split at h
    · exact List.mem_cons.1 h
    · split at h
      · rcases List.mem_cons.1 h with rfl | h
        · exact Or.inl rfl
        · exact Or.inr (List.mem_cons_of_mem _ h)
      · rcases List.mem_cons.1 h with rfl | h
        · exact Or.inr List.mem_cons_self
        · exact (ih h).imp_right (List.mem_cons_of_mem _)

theorem mem_of_mem_ofList {e : String × α} {added : List (String × α)} (h : e ∈ ofList added) :
    e ∈ added := by
  have hfold : ∀ (added : List (String × α)) (entries : Keyed α),
      e ∈ added.foldl (fun acc entry => acc.insert entry.1 entry.2) entries →
        e ∈ added ∨ e ∈ entries := by
    intro added
    induction added with
    | nil => exact fun entries he => Or.inr he
    | cons entry rest ih =>
      intro entries he
      rcases ih _ he with hrest | hinsert
      · exact Or.inl (List.mem_cons_of_mem _ hrest)
      · rcases mem_of_mem_insert hinsert with rfl | hentries
        · exact Or.inl List.mem_cons_self
        · exact Or.inr hentries
  exact (hfold added [] h).resolve_right List.not_mem_nil

theorem Sorted.insert (h : Sorted entries) (key : String) (value : α) :
    Sorted (entries.insert key value) := by
  induction entries with
  | nil => exact List.pairwise_singleton _ _
  | cons e rest ih =>
    obtain ⟨k, v⟩ := e
    obtain ⟨hfirst, hrest⟩ := List.pairwise_cons.1 h
    rw [Keyed.insert]
    split
    · rename_i hlt
      refine List.pairwise_cons.2 ⟨fun f hf => ?_, h⟩
      rcases List.mem_cons.1 hf with rfl | hf
      · exact hlt
      · exact lt_trans hlt (hfirst f hf)
    · rename_i hge
      split
      · rename_i hk
        obtain rfl := eq_of_beq hk
        exact List.pairwise_cons.2 ⟨hfirst, hrest⟩
      · rename_i hk
        have hne : key ≠ k := by simpa using hk
        have hgt : k < key := lt_of_le_of_ne (not_lt.1 hge) hne.symm
        refine List.pairwise_cons.2 ⟨fun f hf => ?_, ih hrest⟩
        rcases mem_of_mem_insert hf with rfl | hf
        · exact hgt
        · exact hfirst f hf

theorem Sorted.get?_of_mem (h : Sorted entries) (hmem : (key, value) ∈ entries) :
    entries.get? key = some value := by
  induction entries with
  | nil => cases hmem
  | cons e rest ih =>
    obtain ⟨k, v⟩ := e
    obtain ⟨hfirst, hrest⟩ := List.pairwise_cons.1 h
    rw [get?]
    rcases List.mem_cons.1 hmem with hown | hmem
    · obtain ⟨rfl, rfl⟩ := Prod.mk.inj hown
      simp
    · have hne : key ≠ k := (ne_of_lt (hfirst _ hmem)).symm
      simpa [hne] using ih hrest hmem

/-- What is found under the keys determines the entries. -/
theorem Sorted.ext {others : Keyed α} (h : Sorted entries) (ho : Sorted others)
    (heq : ∀ key, entries.get? key = others.get? key) : entries = others := by
  have hkeys : ∀ {table : Keyed α}, Sorted table → table.Nodup :=
    fun ht => List.Pairwise.imp (fun hlt he => (ne_of_lt hlt) (congrArg Prod.fst he)) ht
  have hmem : ∀ e, e ∈ entries ↔ e ∈ others := by
    rintro ⟨key, value⟩
    constructor
    · intro he
      exact mem_of_get? ((heq key).symm.trans (h.get?_of_mem he))
    · intro he
      exact mem_of_get? ((heq key).trans (ho.get?_of_mem he))
  have hperm : entries.Perm others := (List.perm_ext_iff_of_nodup (hkeys h) (hkeys ho)).2 hmem
  exact hperm.eq_of_pairwise (fun _ _ _ _ hlt hgt => absurd (lt_trans hlt hgt) (lt_irrefl _)) h ho

theorem Sorted.foldl_insert (h : Sorted entries) (added : List (String × α)) :
    Sorted (added.foldl (fun acc e => acc.insert e.1 e.2) entries) := by
  induction added generalizing entries with
  | nil => exact h
  | cons e rest ih => exact ih (h.insert e.1 e.2)

/-- Of the values that are set under a key the last is found, or else the one from before. -/
theorem get?_foldl_insert (added : List (String × α)) (entries : Keyed α) (key : String) :
    (added.foldl (fun acc e => acc.insert e.1 e.2) entries).get? key =
      (added.reverse.lookup key).or (entries.get? key) := by
  induction added generalizing entries with
  | nil => rfl
  | cons e rest ih =>
    obtain ⟨k, v⟩ := e
    rw [List.foldl_cons, ih, List.reverse_cons, List.lookup_append, Option.or_assoc]
    congr 1
    by_cases hkey : key = k
    · subst hkey
      rw [get?_insert_self, List.lookup_cons_self, Option.some_or]
    · rw [get?_insert_of_ne v entries hkey, List.lookup_cons, beq_false_of_ne hkey]
      rfl

/-- One value that is set under several keys. -/
theorem get?_foldl_insert_const (keys : List String) (value : α) (entries : Keyed α)
    (key : String) :
    (keys.foldl (fun acc k => acc.insert k value) entries).get? key =
      if key ∈ keys then some value else entries.get? key := by
  induction keys generalizing entries with
  | nil => simp
  | cons k rest ih =>
    rw [List.foldl_cons, ih]
    by_cases hrest : key ∈ rest
    · simp [hrest]
    · by_cases hkey : key = k
      · subst hkey
        simp [hrest, get?_insert_self]
      · simp [hrest, hkey, get?_insert_of_ne value entries hkey]

end Worksheet.Keyed
