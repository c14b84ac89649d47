import Worksheet.Content.Line
import Worksheet.Proofs.Chars.Trim
import Worksheet.Proofs.Results

namespace Worksheet.ContentLine

/-- A written line as it is read back: trimmed, without markers, and on no line of a script. -/
def reread (line : String) : ContentLine :=
  ⟨Text.trim line, [], 0⟩

@[simp] theorem text_reread (line : String) : (reread line).text = Text.trim line := rfl

theorem text_reread_of_tight {cs : List Char} (h : Chars.Tight cs) :
    (reread (String.ofList cs)).text = String.ofList cs := by
  rw [text_reread, Text.trim, String.toList_ofList, h.trim_eq]

variable {α ε : Type} {read : ContentLine → Except ε α} {write : α → String}

/-- Lines that are not blank are all read. -/
theorem withText_reread {texts : List String} (h : ∀ t ∈ texts, Text.trim t ≠ "") :
    withText (texts.map reread) = texts.map reread := by
  rw [withText, List.filter_eq_self]
  intro l hl
  obtain ⟨t, ht, rfl⟩ := List.mem_map.1 hl
  have hne : Text.trim t ≠ "" := h t ht
  simpa using hne

theorem mapM_reread_iff {items : List α} (h : ∀ a ∈ items, Text.trim (write a) ≠ "") :
    (withText ((items.map write).map reread)).mapM read = .ok items ↔
      ∀ a ∈ items, read (reread (write a)) = .ok a := by
  have htext : ∀ t ∈ items.map write, Text.trim t ≠ "" := by
    intro t ht
    obtain ⟨a, ha, rfl⟩ := List.mem_map.1 ht
    exact h a ha
  rw [withText_reread htext, mapM_eq_ok_iff, List.forall₂_map_left_iff, List.forall₂_map_left_iff,
    List.forall₂_same]

end Worksheet.ContentLine
