import Worksheet.Proofs.Kind.Handling
import Worksheet.Proofs.Results

namespace Worksheet

/-- If this fails on a line, the number of the line is one of the given numbers. -/
def FailsOn {α : Type} (numbers : List Nat) (result : Except ContentError α) : Prop :=
  ∀ number fault, result = .error (.line number fault) → number ∈ numbers

theorem ContentLine.withText_subset (ls : List ContentLine) : withText ls ⊆ ls := by
  intro l hl
  exact (List.mem_filter.1 hl).1

namespace FailsOn

variable {α β : Type} {numbers : List Nat}

theorem ok (a : α) : FailsOn numbers (.ok a) := by
  intro number fault h
  cases h

theorem line {number : Nat} (h : number ∈ numbers) (fault : ContentFault) :
    FailsOn numbers (.error (.line number fault) : Except ContentError α) := by
  intro other _ he
  cases he
  exact h

theorem noContent (what : String) :
    FailsOn numbers (.error (.noContent what) : Except ContentError α) := by
  intro number fault h
  cases h

theorem bind {x : Except ContentError α} {f : α → Except ContentError β} (hx : FailsOn numbers x)
    (hf : ∀ a, FailsOn numbers (f a)) : FailsOn numbers (x >>= f) := by
  intro number fault h
  cases x with
  | error e =>
    have he : e = .line number fault := Except.error.inj h
    exact hx number fault (congrArg _ he)
  | ok a => exact hf a number fault h

theorem map {x : Except ContentError α} (hx : FailsOn numbers x) (f : α → β) :
    FailsOn numbers (x.map f) := by
  intro number fault h
  cases x with
  | error e =>
    have he : e = .line number fault := Except.error.inj h
    exact hx number fault (congrArg _ he)
  | ok a => cases h

/-- What is read item by item fails where the reading of an item does. -/
theorem mapM {f : α → Except ContentError β} {xs : List α}
    (h : ∀ x ∈ xs, FailsOn numbers (f x)) : FailsOn numbers (xs.mapM f) := by
  induction xs with
  | nil => exact ok []
  | cons x xs ih =>
    have hx := h x (by simp)
    have hrest := ih fun y hy => h y (by simp [hy])
    rw [List.mapM_cons]
    exact hx.bind fun y => hrest.bind fun ys => ok (y :: ys)

/-- If each line blames itself at most, some of the lines blame none but these. -/
theorem eachLine {read : ContentLine → Except ContentError α} (h : ∀ l, FailsOn [l.line] (read l))
    {some all : List ContentLine} (hsome : some ⊆ all) :
    FailsOn (all.map (·.line)) (some.mapM read) := by
  refine mapM fun l hl => ?_
  intro number fault he
  have hnumber : number = l.line := List.mem_singleton.1 (h l number fault he)
  rw [hnumber]
  exact List.mem_map_of_mem (hsome hl)

/-- Lines with a text that are read one by one, of which there must be some. -/
theorem withText {read : ContentLine → Except ContentError α}
    (h : ∀ l, FailsOn [l.line] (read l)) (what : String) (wrap : List α → β)
    (ls : List ContentLine) : FailsOn (ls.map (·.line)) (do
      let found ← (ContentLine.withText ls).mapM read
      if found.isEmpty then .error (.noContent what) else return wrap found) := by
  have hlines := eachLine h (ContentLine.withText_subset ls)
  refine hlines.bind fun found => ?_
  split
  · exact noContent what
  · exact ok _

end FailsOn

/-- A fault in the reading of lines names one of the lines, if it names any. -/
def BlamesOwn {α : Type} (read : List ContentLine → Except ContentError α) : Prop :=
  ∀ ls, FailsOn (ls.map (·.line)) (read ls)

theorem BlamesOwn.map {α β : Type} {read : List ContentLine → Except ContentError α}
    (h : BlamesOwn read) (wrap : α → β) : BlamesOwn fun ls => (read ls).map wrap :=
  fun ls => (h ls).map wrap

namespace FillBlank

theorem failsOn_sentenceLine (l : ContentLine) : FailsOn [l.line] (sentenceLine l) := by
  rw [sentenceLine]
  split
  · exact .ok _
  · exact .line (by simp) _

theorem parse_blamesOwn : BlamesOwn parse :=
  FailsOn.withText failsOn_sentenceLine tag id

end FillBlank

namespace MultipleChoice

theorem failsOn_questionLine (l : ContentLine) : FailsOn [l.line] (questionLine l) := by
  rw [questionLine]
  split
  · exact .ok _
  · exact .line (by simp) _

theorem parse_blamesOwn : BlamesOwn parse :=
  FailsOn.withText failsOn_questionLine tag id

end MultipleChoice

namespace Matching

theorem failsOn_pairLine (l : ContentLine) : FailsOn [l.line] (pairLine l) := by
  rw [pairLine]
  split
  · exact .ok _
  · exact .line (by simp) _

theorem parse_blamesOwn : BlamesOwn parse :=
  FailsOn.withText failsOn_pairLine tag id

end Matching

namespace Categorize

theorem failsOn_categoryLine (l : ContentLine) : FailsOn [l.line] (categoryLine l) := by
  rw [categoryLine]
  split
  · exact .ok _
  · exact .line (by simp) _

theorem parse_blamesOwn : BlamesOwn parse :=
  FailsOn.withText failsOn_categoryLine tag fun categories => ({ categories } : Categories)

end Categorize

namespace Ordering

theorem failsOn_nonempty (numbers : List Nat) (sentences : List OrderingSentence) :
    FailsOn numbers (nonempty sentences) := by
  rw [nonempty]
  split
  · exact .noContent tag
  · exact .ok _

theorem failsOn_segmentLine (l : ContentLine) : FailsOn [l.line] (segmentLine l) := by
  rw [segmentLine]
  split
  · exact .ok _
  · exact .line (by simp) _

theorem parse_blamesOwn : BlamesOwn parse := by
  intro ls
  have hlines := FailsOn.eachLine failsOn_segmentLine (ContentLine.withText_subset ls)
  exact hlines.bind (failsOn_nonempty _)

theorem Single.failsOn_wordLine (l : ContentLine) : FailsOn [l.line] (Single.wordLine l) := by
  rw [Single.wordLine]
  split
  · exact .ok _
  · exact failsOn_segmentLine l

theorem Single.parse_blamesOwn : BlamesOwn Single.parse := by
  intro ls
  have hlines := FailsOn.eachLine Single.failsOn_wordLine (ContentLine.withText_subset ls)
  exact hlines.bind (failsOn_nonempty _)

theorem Aligner.sentences_blamesOwn (run : List String) : BlamesOwn (Aligner.sentences run) := by
  intro ls
  induction ls generalizing run with
  | nil => exact .ok _
  | cons l rest ih =>
    have hrest : ∀ more, FailsOn ((l :: rest).map (·.line)) (Aligner.sentences more rest) := by
      intro more number fault he
      exact List.mem_cons_of_mem _ (ih more number fault he)
    rw [Aligner.sentences]
    split
    · exact .line (by simp) _
    · split
      · exact hrest _
      · exact (hrest []).map _

theorem Aligner.parse_blamesOwn : BlamesOwn Aligner.parse := by
  intro ls
  have hsentences : FailsOn (ls.map (·.line)) (Aligner.sentences [] (ContentLine.withText ls)) := by
    intro number fault he
    have hmem := Aligner.sentences_blamesOwn [] _ number fault he
    obtain ⟨l, hl, rfl⟩ := List.mem_map.1 hmem
    exact List.mem_map_of_mem (ContentLine.withText_subset ls hl)
  exact hsentences.bind (failsOn_nonempty _)

end Ordering

namespace Selector

theorem parse_blamesOwn : BlamesOwn parse := by
  intro ls
  rw [parse]
  split
  · exact .noContent tag
  · exact .ok _

namespace Image

theorem failsOn_coordinate (line : Nat) (call : Call) (index : Nat) (name : String) :
    FailsOn [line] (coordinate line call index name) := by
  rw [coordinate]
  split
  · exact .ok _
  · exact .line (by simp) _

theorem failsOn_areaTarget (line : Nat) (call : Call) : FailsOn [line] (areaTarget line call) := by
  rw [areaTarget]
  split
  · exact .ok _
  · exact .ok _
  · exact .line (by simp) _

theorem failsOn_area (line : Nat) (call : Call) : FailsOn [line] (area line call) := by
  have hnumber := failsOn_coordinate line call
  refine (failsOn_areaTarget line call).bind fun isTarget => ?_
  refine (hnumber 0 "x").bind fun x => (hnumber 1 "y").bind fun y => ?_
  exact (hnumber 2 "width").bind fun width => (hnumber 3 "height").bind fun height => .ok _

theorem failsOn_lineAreas (l : ContentLine) : FailsOn [l.line] (lineAreas l) := by
  rw [lineAreas]
  split
  · exact .line (by simp) _
  · exact .mapM fun call _ => failsOn_area l.line call

theorem parse_blamesOwn : BlamesOwn Image.parse := by
  intro ls
  rw [Image.parse]
  split
  · exact .noContent _
  · have hlines := FailsOn.eachLine failsOn_lineAreas (List.Subset.refl ls)
    exact hlines.bind fun areas => .ok _

end Image

end Selector

theorem Kind.Handles.blamesOwn {tag : String} {name : Option String} {h : Handling}
    (hh : Handles tag name h) : BlamesOwn h.read := by
  cases hh with
  | onText => exact Selector.parse_blamesOwn.map _
  | onImage => exact Selector.Image.parse_blamesOwn.map _
  | fillBlank => exact FillBlank.parse_blamesOwn.map _
  | multipleChoice => exact MultipleChoice.parse_blamesOwn.map _
  | categories => exact Categorize.parse_blamesOwn.map _
  | orderedCategories => exact Categorize.parse_blamesOwn.map _
  -- A lake is made of any lines.
  | lake => exact fun ls => .ok _
  | matching => exact Matching.parse_blamesOwn.map _
  | ordering => exact Ordering.parse_blamesOwn.map _
  | single => exact Ordering.Single.parse_blamesOwn.map _
  | aligner => exact Ordering.Aligner.parse_blamesOwn.map _

namespace KindRegistry

/-- A fault in content that is read as a built-in kind names a line of the content, if any. -/
theorem parse_builtin_blamesOwn (tag : String) (hint : Option String) :
    BlamesOwn fun ls => builtin.parse tag ls hint := by
  intro ls
  dsimp only
  cases hk : builtin.get? tag with
  | none =>
    rw [parse, hk]
    intro number fault he
    cases he
  | some k =>
    rw [parse_eq hk]
    cases hc : chooseVariation k hint ls with
    | error e =>
      have hnone : ∀ number fault, e ≠ .line number fault := by
        rintro number fault rfl
        rw [chooseVariation.eq_def] at hc
        split at hc
        · cases hc
        · split at hc <;> cases hc
      intro number fault he
      exact absurd (Except.error.inj he) (hnone number fault)
    | ok chosen =>
      have hmem : ∀ v, chosen = some v → v ∈ k.variations := fun v hv =>
        mem_of_chooseVariation (hv ▸ hc)
      exact ((handles_builtin (mem_of_get? hk) hmem).blamesOwn ls).map _

end KindRegistry

end Worksheet
