import Worksheet.Content.Basic
import Worksheet.Proofs.Move.Basic
import Worksheet.Proofs.Results

namespace Worksheet

/-- The lines are read in the same way wherever they stand, and a fault moves with its line. -/
def ReadsAnywhere {α : Type} (read : List ContentLine → Except ContentError α) : Prop :=
  ∀ (r : Relocation) (ls : List ContentLine),
    read (ls.map (ContentLine.relocate r)) = (read ls).mapError (ContentError.relocate r)

/-- A single line is read in the same way wherever it stands. -/
def ReadsLineAnywhere {α : Type} (read : ContentLine → Except ContentError α) : Prop :=
  ∀ (r : Relocation) (l : ContentLine),
    read (l.relocate r) = (read l).mapError (ContentError.relocate r)

variable (r : Relocation)

namespace ContentLine

theorem withText_relocate (ls : List ContentLine) :
    withText (ls.map (ContentLine.relocate r)) = (withText ls).map (ContentLine.relocate r) :=
  List.filter_map

theorem any_withText_relocate (p : String → Bool) (ls : List ContentLine) :
    ((withText (ls.map (ContentLine.relocate r))).any fun l => p l.text) =
      (withText ls).any fun l => p l.text := by
  rw [withText_relocate, List.any_map]
  rfl

theorem all_withText_relocate (p : String → Bool) (ls : List ContentLine) :
    ((withText (ls.map (ContentLine.relocate r))).all fun l => p l.text) =
      (withText ls).all fun l => p l.text := by
  rw [withText_relocate, List.all_map]
  rfl

end ContentLine

/-- On lines with positive numbers, so are the numbers of lines with faults. -/
theorem ReadsAnywhere.line_pos {α : Type} {read : List ContentLine → Except ContentError α}
    (h : ReadsAnywhere read) {ls : List ContentLine} (hls : ∀ l ∈ ls, 0 < l.line) {number : Nat}
    {fault : ContentFault} (he : read ls = .error (.line number fault)) : 0 < number := by
  obtain ⟨earlier, rfl⟩ := ContentLine.exists_relocate_of_pos hls
  rw [h .nextLine earlier] at he
  cases hr : read earlier with
  | ok a =>
    rw [hr] at he
    cases he
  | error e =>
    rw [hr] at he
    cases e with
    | line n f =>
      cases he
      exact Nat.succ_pos n
    | _ => cases he

theorem ReadsLineAnywhere.mapM_relocate {α : Type} {read : ContentLine → Except ContentError α}
    (h : ReadsLineAnywhere read) (ls : List ContentLine) :
    (ls.map (ContentLine.relocate r)).mapM read =
      (ls.mapM read).mapError (ContentError.relocate r) := by
  rw [List.mapM_map]
  exact mapM_mapError (h r) ls

/-- Lines with a text that are read one by one, of which there must be some. -/
theorem ReadsLineAnywhere.withText {α β : Type} {read : ContentLine → Except ContentError α}
    (h : ReadsLineAnywhere read) (what : String) (wrap : List α → β) :
    ReadsAnywhere fun ls => do
      let found ← (ContentLine.withText ls).mapM read
      if found.isEmpty then .error (.noContent what) else return wrap found := by
  intro r ls
  dsimp only
  rw [ContentLine.withText_relocate, h.mapM_relocate, mapError_bind]
  congr 1
  funext found
  split <;> rfl

namespace FillBlank

theorem sentenceLine_readsAnywhere : ReadsLineAnywhere sentenceLine := by
  intro r l
  rw [sentenceLine, sentenceLine, ContentLine.relocate_text]
  split <;> rfl

theorem parse_readsAnywhere : ReadsAnywhere parse :=
  sentenceLine_readsAnywhere.withText tag id

theorem detect_relocate (ls : List ContentLine) :
    detect (ls.map (ContentLine.relocate r)) = detect ls :=
  ContentLine.any_withText_relocate r (fun text => (parseSentence text).isSome) ls

end FillBlank

namespace MultipleChoice

theorem questionLine_readsAnywhere : ReadsLineAnywhere questionLine := by
  intro r l
  rw [questionLine, questionLine, ContentLine.relocate_text]
  split <;> rfl

theorem parse_readsAnywhere : ReadsAnywhere parse :=
  questionLine_readsAnywhere.withText tag id

theorem detect_relocate (ls : List ContentLine) :
    detect (ls.map (ContentLine.relocate r)) = detect ls :=
  ContentLine.any_withText_relocate r _ ls

end MultipleChoice

namespace Matching

theorem pairLine_readsAnywhere : ReadsLineAnywhere pairLine := by
  intro r l
  rw [pairLine, pairLine, ContentLine.relocate_text]
  split <;> rfl

theorem parse_readsAnywhere : ReadsAnywhere parse :=
  pairLine_readsAnywhere.withText tag id

theorem detect_relocate (ls : List ContentLine) :
    detect (ls.map (ContentLine.relocate r)) = detect ls :=
  ContentLine.any_withText_relocate r _ ls

end Matching

namespace Categorize

theorem categoryLine_readsAnywhere : ReadsLineAnywhere categoryLine := by
  intro r l
  rw [categoryLine, categoryLine, ContentLine.relocate_text]
  split <;> rfl

theorem parse_readsAnywhere : ReadsAnywhere parse :=
  categoryLine_readsAnywhere.withText tag fun categories => ({ categories } : Categories)

theorem detect_relocate (ls : List ContentLine) :
    detect (ls.map (ContentLine.relocate r)) = detect ls :=
  ContentLine.any_withText_relocate r (fun text => startsLake text || isPiped text) ls

theorem variationOf_relocate (ls : List ContentLine) :
    variationOf (ls.map (ContentLine.relocate r)) = variationOf ls := by
  rw [variationOf, variationOf, ContentLine.any_withText_relocate, ContentLine.withText_relocate,
    List.filter_map, List.length_map]
  rfl

theorem InLake.parse_relocate (ls : List ContentLine) :
    InLake.parse (ls.map (ContentLine.relocate r)) = InLake.parse ls := by
  rw [InLake.parse, InLake.parse, ContentLine.withText_relocate, List.foldl_map]
  rfl

end Categorize

namespace Ordering

theorem nonempty_mapError (sentences : List OrderingSentence) :
    (nonempty sentences).mapError (ContentError.relocate r) = nonempty sentences := by
  rw [nonempty]
  split <;> rfl

theorem segmentLine_readsAnywhere : ReadsLineAnywhere segmentLine := by
  intro r l
  rw [segmentLine, segmentLine, ContentLine.relocate_text]
  split <;> rfl

theorem parse_readsAnywhere : ReadsAnywhere parse := by
  intro r ls
  rw [parse, parse, ContentLine.withText_relocate, segmentLine_readsAnywhere.mapM_relocate,
    mapError_bind]
  simp only [nonempty_mapError]

theorem isEmpty_withText_relocate (ls : List ContentLine) :
    (ContentLine.withText (ls.map (ContentLine.relocate r))).isEmpty =
      (ContentLine.withText ls).isEmpty := by
  rw [ContentLine.withText_relocate, List.isEmpty_map]

theorem detect_relocate (ls : List ContentLine) :
    detect (ls.map (ContentLine.relocate r)) = detect ls := by
  have hany := ContentLine.any_withText_relocate r (fun text => qualifies text || hasAlign text) ls
  have hall := ContentLine.all_withText_relocate r isSingleWord ls
  rw [detect, detect, isEmpty_withText_relocate, hany, hall]

theorem variationOf_relocate (ls : List ContentLine) :
    variationOf (ls.map (ContentLine.relocate r)) = variationOf ls := by
  rw [variationOf, variationOf, isEmpty_withText_relocate, ContentLine.any_withText_relocate,
    ContentLine.all_withText_relocate]

theorem Single.wordLine_readsAnywhere : ReadsLineAnywhere Single.wordLine := by
  intro r l
  rw [Single.wordLine, Single.wordLine, ContentLine.relocate_text, segmentLine_readsAnywhere r]
  split <;> rfl

theorem Single.parse_readsAnywhere : ReadsAnywhere Single.parse := by
  intro r ls
  rw [Single.parse, Single.parse, ContentLine.withText_relocate,
    Single.wordLine_readsAnywhere.mapM_relocate, mapError_bind]
  simp only [nonempty_mapError]

theorem Aligner.sentences_readsAnywhere (run : List String) :
    ReadsAnywhere (Aligner.sentences run) := by
  intro r ls
  induction ls generalizing run with
  | nil => rfl
  | cons l rest ih =>
    rw [List.map_cons, Aligner.sentences, Aligner.sentences, ContentLine.relocate_text]
    cases alignCalls l.text with
    | error e => rfl
    | ok calls =>
      dsimp only
      split
      · exact ih _
      · rw [ih]
        cases Aligner.sentences [] rest <;> rfl

theorem Aligner.parse_readsAnywhere : ReadsAnywhere Aligner.parse := by
  intro r ls
  rw [Aligner.parse, Aligner.parse, ContentLine.withText_relocate, Aligner.sentences_readsAnywhere,
    mapError_bind]
  simp only [nonempty_mapError]

end Ordering

namespace Selector

theorem parse_readsAnywhere : ReadsAnywhere parse := by
  intro r ls
  have htext : (fun l : ContentLine => parseSentence l.text) ∘ ContentLine.relocate r =
      fun l => parseSentence l.text := rfl
  rw [parse, parse, ContentLine.withText_relocate, List.map_map, htext]
  split <;> rfl

theorem detect_relocate (ls : List ContentLine) :
    detect (ls.map (ContentLine.relocate r)) = detect ls := by
  rw [detect, detect, List.any_map]
  rfl

theorem variationOf_relocate (ls : List ContentLine) :
    variationOf (ls.map (ContentLine.relocate r)) = variationOf ls := by
  rw [variationOf, variationOf, List.any_map]
  rfl

namespace Image

theorem coordinate_relocate (line : Nat) (call : Call) (index : Nat) (name : String) :
    coordinate (r.line line) call index name =
      (coordinate line call index name).mapError (ContentError.relocate r) := by
  rw [coordinate, coordinate]
  split <;> rfl

theorem areaTarget_relocate (line : Nat) (call : Call) :
    areaTarget (r.line line) call =
      (areaTarget line call).mapError (ContentError.relocate r) := by
  rw [areaTarget, areaTarget]
  split <;> rfl

theorem area_relocate (line : Nat) (call : Call) :
    area (r.line line) call = (area line call).mapError (ContentError.relocate r) := by
  simp only [area, areaTarget_relocate, coordinate_relocate, mapError_bind]
  rfl

theorem lineAreas_readsAnywhere : ReadsLineAnywhere lineAreas := by
  intro r l
  rw [lineAreas, lineAreas, ContentLine.relocate_text]
  cases areaCalls l.text with
  | error e => rfl
  | ok calls => exact mapM_mapError (area_relocate r l.line) calls

theorem parse_readsAnywhere : ReadsAnywhere Image.parse := by
  intro r ls
  rw [Image.parse, Image.parse, List.findSome?_map]
  dsimp only [Function.comp_def]
  have hmarker : ∀ l : ContentLine, (l.relocate r).marker? .image = l.marker? .image := fun _ => rfl
  simp only [hmarker]
  split
  · rfl
  · rw [lineAreas_readsAnywhere.mapM_relocate, mapError_bind]
    rfl

end Image

end Selector

end Worksheet
