import Worksheet.Proofs.Block.Lines
import Worksheet.Proofs.Move.Lines

namespace Worksheet

namespace OpenBlock

theorem move_add (o : Origin) (b : OpenBlock) (l : SourceLine) :
    (b.move o).add (l.move o) = (b.add l).move o := by
  simp [add, move]

theorem move_addLast (o : Origin) (b : OpenBlock) (l : SourceLine) :
    (b.move o).addLast (l.move o) = (b.addLast l).move o := by
  rw [addLast, addLast, SourceLine.move_text]
  split
  · rfl
  · split
    · rfl
    · rename_i before _ _
      split
      · rfl
      · rw [← move_add]
        congr 1
        simp only [SourceLine.move, SourceLine.relocate, Span.relocate, Relocation.ofOrigin]
        congr 2
        omega

end OpenBlock

namespace Place

theorem strayWarning_move (o : Origin) (stray : Option Span) :
    strayWarning (stray.map (·.shift o.bytes)) = (strayWarning stray).map (Finding.move o) := by
  cases stray <;> rfl

/-- A step sees no more of places than their distances. -/
theorem step_move (o : Origin) (place : Place) (l : SourceLine) :
    (place.move o).step (l.move o) =
      ((place.step l).1.move o, (place.step l).2.map (Finding.move o)) := by
  cases place with
  | outside stray =>
    rw [move, step, step, SourceLine.move_text]
    dsimp only
    split
    · rw [strayWarning_move]
      rfl
    · split
      · rw [strayWarning_move]
        rfl
      · cases stray <;> rfl
  | inside block =>
    rw [move, step, step, SourceLine.move_text]
    dsimp only
    split
    · rw [OpenBlock.move_add]
      rfl
    · have hdepth : (block.move o).depth = block.depth := rfl
      rw [hdepth, OpenBlock.move_add, OpenBlock.move_addLast]
      split <;> rfl

theorem run_cons (place : Place) (l : SourceLine) (rest : List SourceLine) :
    place.run (l :: rest) = (((place.step l).1.run rest).1,
      (place.step l).2 ++ ((place.step l).1.run rest).2) := rfl

theorem run_move (o : Origin) (place : Place) (ls : List SourceLine) :
    (place.move o).run (ls.map (SourceLine.move o)) =
      ((place.run ls).1.move o, (place.run ls).2.map (Finding.move o)) := by
  induction ls generalizing place with
  | nil => rfl
  | cons l rest ih => rw [List.map_cons, run_cons, step_move, ih, run_cons, List.map_append]

theorem run_append (place : Place) (xs ys : List SourceLine) :
    place.run (xs ++ ys) = (((place.run xs).1.run ys).1,
      (place.run xs).2 ++ ((place.run xs).1.run ys).2) := by
  induction xs generalizing place with
  | nil => rfl
  | cons x xs ih => rw [List.cons_append, run_cons, ih, run_cons, List.append_assoc]

theorem finish_move (o : Origin) (place : Place) (size : Nat) :
    (place.move o).finish (size + o.bytes) = (place.finish size).map (Finding.move o) := by
  cases place with
  | outside stray => exact strayWarning_move o stray
  | inside block => rfl

end Place

namespace Outline

/-- All that the reading of a script brings to light. -/
def findings (script : String) : List Finding :=
  let (place, found) := Place.run (.outside none) (SourceLine.ofScript script)
  found ++ place.finish (Text.size script)

/-- The script ends outside of all blocks and of stray text. -/
def EndsClean (script : String) : Prop :=
  (Place.run (.outside none) (SourceLine.ofScript script)).1 = .outside none

theorem findings_append {a : String} (h : EndsClean a) (b : String) :
    findings (a ++ "\n" ++ b) = findings a ++ (findings b).map (Finding.move (.after a)) := by
  have hsize : Text.size (a ++ "\n" ++ b) = Text.size b + (Origin.after a).bytes := by
    show Chars.size _ = Chars.size _ + (Chars.size _ + 1)
    simp only [String.toList_append, Chars.size_append]
    show _ + 1 + _ = _
    omega
  have ha : findings a = ((Place.outside none).run (SourceLine.ofScript a)).2 := by
    rw [findings]
    dsimp only
    rw [h]
    exact List.append_nil _
  have hrun := Place.run_move (.after a) (.outside none) (SourceLine.ofScript b)
  rw [show Place.move (.after a) (.outside none) = .outside none from rfl] at hrun
  rw [ha, findings, findings, SourceLine.ofScript_append, Place.run_append, h, hrun, hsize]
  dsimp only
  rw [Place.finish_move, List.map_append, List.append_assoc]

/-- The lines of a closed block and the line of its closing brace. -/
def closed? : Finding → Option (OpenBlock × SourceLine)
  | .block b last => some (b, last)
  | .warning _ => none

def warning? : Finding → Option StructureWarning
  | .warning w => some w
  | .block .. => none

theorem ofScript_eq (script : String) : ofScript script =
    ⟨((findings script).filterMap closed?).zipIdx.map fun ((b, last), index) =>
      b.close script index last, (findings script).filterMap warning?⟩ := by
  rw [ofScript, findings]
  rfl

theorem filterMap_warning?_move (o : Origin) (found : List Finding) :
    (found.map (Finding.move o)).filterMap warning? =
      (found.filterMap warning?).map (StructureWarning.move o) := by
  rw [List.filterMap_map, List.map_filterMap]
  congr 1
  funext f
  cases f <;> rfl

theorem filterMap_closed?_move (o : Origin) (found : List Finding) :
    (found.map (Finding.move o)).filterMap closed? =
      (found.filterMap closed?).map fun (b, last) => (b.move o, last.move o) := by
  rw [List.filterMap_map, List.map_filterMap]
  congr 1
  funext f
  cases f <;> rfl

theorem warnings_append {a : String} (h : EndsClean a) (b : String) :
    (ofScript (a ++ "\n" ++ b)).warnings =
      (ofScript a).warnings ++ (ofScript b).warnings.map (StructureWarning.move (.after a)) := by
  rw [ofScript_eq, ofScript_eq, ofScript_eq, findings_append h]
  dsimp only
  rw [List.filterMap_append, filterMap_warning?_move]

end Outline

/-- Where a finding stands in its script. -/
inductive Finding.LiesIn (script : String) : Finding → Prop where
  | stray {s : Span} (start_le : s.start ≤ Text.size script) :
    LiesIn script (.warning ⟨.stray, s⟩)
  | unclosed {s : Span} {line : Nat} (start_le : s.start ≤ Text.size script)
    (number : Chars.countBefore '\n' s.start script.toList + 1 = line) :
    LiesIn script (.warning ⟨.unclosed line, s⟩)
  | block {b : OpenBlock} {last : SourceLine} (stop_le : last.span.stop ≤ Text.size script)
    (lines : ∀ l ∈ b.lines, 0 < l.number) : LiesIn script (.block b last)

/-- Where a place stands in its script. -/
inductive Place.LiesIn (script : String) : Place → Prop where
  | outside : LiesIn script (.outside none)
  | stray {s : Span} (start_le : s.start ≤ Text.size script) : LiesIn script (.outside (some s))
  | inside {b : OpenBlock} (start_le : b.start ≤ Text.size script)
    (number : Chars.countBefore '\n' b.start script.toList + 1 = b.startLine)
    (lines : ∀ l ∈ b.lines, 0 < l.number) : LiesIn script (.inside b)

namespace Place

variable {script : String}

theorem LiesIn.strayWarning {stray : Option Span} (h : LiesIn script (.outside stray)) :
    ∀ f ∈ Worksheet.strayWarning stray, f.LiesIn script := by
  intro f hf
  cases h with
  | outside => cases hf
  | stray hs =>
    obtain rfl := List.mem_singleton.1 hf
    exact .stray hs

theorem LiesIn.finish {place : Place} (h : place.LiesIn script) (size : Nat) :
    ∀ f ∈ place.finish size, f.LiesIn script := by
  cases h with
  | outside => exact LiesIn.outside.strayWarning
  | stray hs => exact (LiesIn.stray hs).strayWarning
  | inside hs hn _ =>
    intro f hf
    obtain rfl := List.mem_singleton.1 hf
    exact .unclosed hs hn

theorem LiesIn.step {place : Place} (h : place.LiesIn script) {l : SourceLine}
    (hl : l.LiesIn script) :
    (place.step l).1.LiesIn script ∧ ∀ f ∈ (place.step l).2, f.LiesIn script := by
  cases place with
  | outside stray =>
    rw [Place.step]
    dsimp only
    split
    · exact ⟨.outside, h.strayWarning⟩
    · split
      · exact ⟨.inside hl.start_le hl.number fun m hm => (by cases hm), h.strayWarning⟩
      · refine ⟨.stray ?_, fun f hf => by cases hf⟩
        cases h with
        | outside => exact hl.start_le
        | stray hs => exact hs
  | inside block =>
    obtain ⟨hs, hn, hb⟩ : block.start ≤ Text.size script ∧
        Chars.countBefore '\n' block.start script.toList + 1 = block.startLine ∧
          ∀ m ∈ block.lines, 0 < m.number := by
      cases h with
      | inside hs hn hb => exact ⟨hs, hn, hb⟩
    have hpos : 0 < l.number := by
      rw [← hl.number]
      exact Nat.succ_pos _
    have hcut : ∀ part : SourceLine, part.number = l.number →
        part.text.toList <+: l.text.toList → 0 < l.number → 0 < part.number := by
      intro part hnumber _ h
      rwa [hnumber]
    rw [Place.step]
    dsimp only
    split
    · exact ⟨.inside hs hn (OpenBlock.forall_add hb hpos), fun f hf => by cases hf⟩
    · split
      · exact ⟨.inside hs hn (OpenBlock.forall_add hb hpos), fun f hf => by cases hf⟩
      · refine ⟨.outside, fun f hf => ?_⟩
        obtain rfl := List.mem_singleton.1 hf
        exact .block hl.stop_le (OpenBlock.forall_addLast hcut hb hpos)

theorem LiesIn.run {place : Place} (h : place.LiesIn script) {ls : List SourceLine}
    (hls : ∀ l ∈ ls, l.LiesIn script) :
    (place.run ls).1.LiesIn script ∧ ∀ f ∈ (place.run ls).2, f.LiesIn script := by
  induction ls generalizing place with
  | nil => exact ⟨h, fun f hf => by cases hf⟩
  | cons l rest ih =>
    obtain ⟨hnext, hfound⟩ := h.step (hls l (by simp))
    obtain ⟨hlast, hmore⟩ := ih hnext fun m hm => hls m (by simp [hm])
    rw [run_cons]
    refine ⟨hlast, fun f hf => ?_⟩
    rcases List.mem_append.1 hf with hf | hf
    · exact hfound f hf
    · exact hmore f hf

end Place

theorem Outline.liesIn_of_mem_findings {script : String} :
    ∀ f ∈ findings script, f.LiesIn script := by
  intro f hf
  have hlines : ∀ l ∈ SourceLine.ofScript script, l.LiesIn script := fun _ hl =>
    SourceLine.liesIn_of_mem hl
  obtain ⟨hlast, hfound⟩ := Place.LiesIn.outside.run hlines
  rw [findings] at hf
  dsimp only at hf
  rcases List.mem_append.1 hf with hf | hf
  · exact hfound f hf
  · exact hlast.finish _ f hf

namespace OpenBlock

theorem close_append {a : String} {last : SourceLine} (h : last.span.stop ≤ Text.size a)
    (b : String) (index : Nat) (block : OpenBlock) :
    block.close (a ++ "\n" ++ b) index last = block.close a index last := by
  have hslice : Text.slice? (a ++ "\n" ++ b) ⟨block.start, last.span.stop⟩ =
      Text.slice? a ⟨block.start, last.span.stop⟩ := by
    rw [Text.slice?, Text.slice?, String.toList_append, String.toList_append, List.append_assoc,
      Chars.slice?_append_of_le (s := ⟨block.start, last.span.stop⟩) h]
  rw [close, close, hslice]

theorem close_move (a b : String) (index : Nat) (block : OpenBlock) (last : SourceLine) :
    (block.move (.after a)).close (a ++ "\n" ++ b) (index + (Origin.after a).blocks)
        (last.move (.after a)) = (block.close b index last).move (.after a) := by
  have hsize : Chars.size (a ++ "\n").toList = (Origin.after a).bytes := by
    rw [String.toList_append, Chars.size_append]
    rfl
  have hslice : Text.slice? (a ++ "\n" ++ b)
      ((⟨block.start, last.span.stop⟩ : Span).shift (Origin.after a).bytes) =
      Text.slice? b ⟨block.start, last.span.stop⟩ := by
    rw [Text.slice?, Text.slice?, String.toList_append, ← hsize, Chars.slice?_shift]
  rw [close, close]
  dsimp only [Block.move]
  rw [← hslice]
  rfl

end OpenBlock

namespace Outline

/-- A warning of a script as the finding it is. -/
theorem liesIn_of_mem_warnings {script : String} {w : StructureWarning}
    (h : w ∈ (ofScript script).warnings) : (Finding.warning w).LiesIn script := by
  rw [ofScript_eq] at h
  obtain ⟨f, hf, hw⟩ := List.mem_filterMap.1 h
  cases f with
  | warning v =>
    cases hw
    exact liesIn_of_mem_findings _ hf
  | block => cases hw

theorem number_pos {script : String} {b : Block} (h : b ∈ (ofScript script).blocks) :
    ∀ l ∈ b.lines, 0 < l.number := by
  rw [ofScript_eq] at h
  obtain ⟨⟨⟨block, last⟩, index⟩, hp, rfl⟩ := List.mem_map.1 h
  obtain ⟨f, hf, hc⟩ := List.mem_filterMap.1 (List.fst_mem_of_mem_zipIdx hp)
  cases liesIn_of_mem_findings f hf with
  | stray => cases hc
  | unclosed => cases hc
  | block _ hlines =>
    cases hc
    exact hlines

theorem blocks_append {a : String} (h : EndsClean a) (b : String) :
    (ofScript (a ++ "\n" ++ b)).blocks =
      (ofScript a).blocks ++ (ofScript b).blocks.map (Block.move (.after a)) := by
  have hcount : (Origin.after a).blocks = ((findings a).filterMap closed?).length := by
    rw [Origin.after, ofScript_eq, List.length_map, List.length_zipIdx]
  have hfirst : ∀ p ∈ ((findings a).filterMap closed?).zipIdx,
      p.1.1.close (a ++ "\n" ++ b) p.2 p.1.2 = p.1.1.close a p.2 p.1.2 := by
    intro p hp
    obtain ⟨⟨block, last⟩, index⟩ := p
    obtain ⟨f, hf, hc⟩ := List.mem_filterMap.1 (List.fst_mem_of_mem_zipIdx hp)
    cases liesIn_of_mem_findings f hf with
    | stray => cases hc
    | unclosed => cases hc
    | block hstop _ =>
      cases hc
      exact OpenBlock.close_append hstop b index block
  have hsecond : ∀ p : (OpenBlock × SourceLine) × Nat,
      (p.1.1.move (.after a)).close (a ++ "\n" ++ b) ((Origin.after a).blocks + p.2)
        (p.1.2.move (.after a)) = (p.1.1.close b p.2 p.1.2).move (.after a) := by
    intro p
    rw [Nat.add_comm, OpenBlock.close_move]
  rw [ofScript_eq, ofScript_eq a, ofScript_eq b, findings_append h]
  dsimp only
  rw [List.filterMap_append, filterMap_closed?_move, List.zipIdx_append, List.map_append,
    List.map_congr_left hfirst, List.zipIdx_map, List.map_map, Nat.zero_add, ← hcount,
    List.zipIdx_eq_map_add (i := (Origin.after a).blocks), List.map_map, List.map_map]
  exact congrArg _ (List.map_congr_left fun p _ => hsecond p)

end Outline

end Worksheet
