import Worksheet.Proofs.Block.Outline

namespace Worksheet

namespace Text

/-- A stretch of a text that begins on the given line of the text. -/
structure StandsOn (text : String) (line : Nat) (s : Span) : Prop where
  bounds : Bounds text s
  line_eq : ∃ before after, text.toList = before ++ after ∧ Chars.size before = s.start ∧
    line = before.count '\n' + 1

end Text

/-- A stretch that lies in another one. -/
def Span.Within (s t : Span) : Prop :=
  t.start ≤ s.start ∧ s.stop ≤ t.stop

theorem Span.Within.refl (s : Span) : s.Within s :=
  ⟨Nat.le_refl _, Nat.le_refl _⟩

theorem SourceLine.StandsIn.standsOn {script : String} {l : SourceLine} (h : l.StandsIn script) :
    Text.StandsOn script l.number l.span :=
  ⟨h.bounds, h.start_boundary⟩

/-- A stretch from the beginning of a line to the end of another one or of the script. -/
theorem SourceLine.StandsIn.standsOn_until {script : String} {l : SourceLine}
    (h : l.StandsIn script) {stop : Nat} (hle : l.span.start ≤ stop)
    (hstop : ∃ before after, script.toList = before ++ after ∧ Chars.size before = stop) :
    Text.StandsOn script l.number ⟨l.span.start, stop⟩ := by
  obtain ⟨before, after, hscript, hstart, hnumber⟩ := h.start_boundary
  exact ⟨⟨hle, ⟨before, after, hscript, hstart⟩, hstop⟩, before, after, hscript, hstart, hnumber⟩

/-- Where a block of a script stands. -/
structure Block.StandsIn (script : String) (b : Block) : Prop where
  standsOn : Text.StandsOn script b.startLine b.span
  lines : ∀ l ∈ b.lines, Text.StandsOn script l.number l.span ∧ l.span.Within b.span

namespace Segmentation

variable {script : String} {segments : List Segment}
  (h : Segmentation (SourceLine.ofScript script) segments)

include h

theorem block_standsIn {opening closing : SourceLine} {body : List SourceLine}
    (hs : Segment.block opening body closing ∈ segments) {b : Block}
    (hb : b.ReadOff script opening body closing) : b.StandsIn script := by
  have hstands := h.standsIn hs
  have hopening : opening.StandsIn script := hstands opening (by simp [Segment.lines])
  have hclosing : closing.StandsIn script := hstands closing (by simp [Segment.lines])
  have hbounds := h.bounds_block hs
  have hpairs := h.pairwise_lines hs
  obtain ⟨hfirst, hinner⟩ := List.pairwise_cons.1 hpairs
  obtain ⟨-, -, hlast⟩ := List.pairwise_append.1 hinner
  have hlength := hopening.start_le_stop
  have hend := hclosing.start_le_stop
  constructor
  · rw [hb.startLine, hb.span]
    exact hopening.standsOn_until hbounds.start_le_stop hbounds.stop_boundary
  · intro l hl
    obtain ⟨before, after, hsplit, -, hlines⟩ := hb.lines
    rw [hlines] at hl
    rw [hb.span]
    rcases List.mem_append.1 hl with hl | hl
    · have hafter := (hfirst l (by simp [hl])).span
      have hbefore := (hlast l hl closing (by simp)).span
      refine ⟨(hstands l (by simp [Segment.lines, hl])).standsOn, ?_, ?_⟩
      · show opening.span.start ≤ l.span.start
        omega
      · show l.span.stop ≤ closing.span.stop
        omega
    · split at hl
      · cases hl
      · obtain rfl := List.mem_singleton.1 hl
        have hafter := (hfirst closing (by simp)).span
        have hcut := (hclosing.cut hsplit).standsOn
        obtain ⟨_, _, -, hspan, -⟩ := hclosing
        have hsize : Chars.size closing.text.toList =
            Chars.size before + Chars.size ('\x7d' :: after) := by
          rw [hsplit, Chars.size_append]
        refine ⟨?_, ?_, ?_⟩
        · rw [hb.endLine]
          exact hcut
        · show opening.span.start ≤ closing.span.start
          omega
        · show closing.span.start + Chars.size before ≤ closing.span.stop
          rw [hspan, hsize]
          show _ ≤ _
          dsimp only
          omega

theorem warning_standsOn {s : Segment} (hs : s ∈ segments) {w : StructureWarning}
    (hw : s.warning? (Text.size script) = some w) : ∃ line, Text.StandsOn script line w.span := by
  have hstands := h.standsIn hs
  have hend : ∃ before after, script.toList = before ++ after ∧
      Chars.size before = Text.size script := ⟨script.toList, [], by simp, rfl⟩
  cases s with
  | gap | block => cases hw
  | stray first rest =>
    obtain rfl := Option.some.inj hw
    have hfirst : first.StandsIn script := hstands first (by simp [Segment.lines])
    have hmem : rest.getLastD first ∈ first :: rest := List.getLastD_mem_cons
    have hlast : (rest.getLastD first).StandsIn script := hstands _ hmem
    have hle : first.span.start ≤ (rest.getLastD first).span.stop := by
      have hlength := hfirst.start_le_stop
      have hend := hlast.start_le_stop
      rcases List.mem_cons.1 hmem with heq | hrest
      · rw [heq]
        exact hlength
      · have hbefore := ((List.pairwise_cons.1 (h.pairwise_lines hs)).1 _ hrest).span
        omega
    exact ⟨first.number, hfirst.standsOn_until hle hlast.bounds.stop_boundary⟩
  | tail opening body =>
    obtain rfl := Option.some.inj hw
    have hopening : opening.StandsIn script := hstands opening (by simp [Segment.lines])
    have hle : opening.span.start ≤ Text.size script := by
      have hlength := hopening.start_le_stop
      have hsize := hopening.bounds.stop_le
      omega
    exact ⟨opening.number, hopening.standsOn_until hle hend⟩

end Segmentation

namespace Outline

variable {script : String}

theorem standsIn_of_mem {b : Block} (hb : b ∈ (ofScript script).blocks) : b.StandsIn script := by
  obtain ⟨segments, h⟩ := Segmentation.exists_segments (SourceLine.ofScript script)
  have hread := readOff_of_segmentation h
  obtain ⟨s, hs, opening, body, closing, rfl, hblock⟩ := forall₂_exists_left hread.blocks hb
  exact h.block_standsIn (List.mem_filter.1 hs).1 hblock

theorem standsOn_of_mem_warnings {w : StructureWarning} (hw : w ∈ (ofScript script).warnings) :
    ∃ line, Text.StandsOn script line w.span := by
  obtain ⟨segments, h⟩ := Segmentation.exists_segments (SourceLine.ofScript script)
  rw [(readOff_of_segmentation h).warnings] at hw
  obtain ⟨s, hs, hwarning⟩ := List.mem_filterMap.1 hw
  exact h.warning_standsOn hs hwarning

end Outline

/-- Counting the line breaks before a stretch gives the line on which it begins. -/
theorem Text.StandsOn.countBefore {text : String} {line : Nat} {s : Span}
    (h : StandsOn text line s) : Chars.countBefore '\n' s.start text.toList + 1 = line := by
  obtain ⟨before, after, htext, hstart, hline⟩ := h.line_eq
  have hcount := Chars.countBefore_add_size '\n' 0 before after
  rw [Nat.zero_add, Chars.countBefore_zero, Nat.add_zero] at hcount
  rw [htext, ← hstart, hcount, hline]

end Worksheet
