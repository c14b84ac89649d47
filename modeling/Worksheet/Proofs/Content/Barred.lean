import Worksheet.Proofs.Chars.Pieces

namespace Worksheet

open Chars (IsPiece Tight)

/-- The items with bars between them. -/
def barred (items : List String) : List Char :=
  Chars.join [' ', '|', ' '] (items.map String.toList)

theorem join_bars (items : List String) : Text.join " | " items = String.ofList (barred items) :=
  rfl

variable {items : List String}

theorem isPiece_toList (h : ∀ item ∈ items, IsPiece '|' item.toList) :
    ∀ text ∈ items.map String.toList, IsPiece '|' text := by
  intro text ht
  obtain ⟨item, hi, rfl⟩ := List.mem_map.1 ht
  exact h item hi

/-- Written items have no white space at their ends. -/
theorem tight_barred (h : ∀ item ∈ items, IsPiece '|' item.toList) : Tight (barred items) := by
  apply Chars.tight_join
  intro text ht
  have hpiece : IsPiece '|' text := isPiece_toList h text ht
  exact ⟨hpiece.tight, hpiece.ne_nil⟩

theorem barred_ne_nil (h : ∀ item ∈ items, IsPiece '|' item.toList) (hne : items ≠ []) :
    barred items ≠ [] := by
  apply Chars.join_ne_nil (by simpa using hne)
  intro text ht
  exact (isPiece_toList h text ht).ne_nil

theorem pieces_barred (h : ∀ item ∈ items, IsPiece '|' item.toList) :
    (Chars.pieces '|' (barred items)).map String.ofList = items := by
  rw [barred, Chars.pieces_join_spaced (by decide), Chars.flatMap_pieces_eq_self (isPiece_toList h)]
  simp

/-- A bar is written between two items. -/
theorem bar_mem_barred (h : 2 ≤ items.length) : '|' ∈ barred items := by
  match items with
  | first :: second :: rest => simp [barred, Chars.join_cons_cons]

end Worksheet
