import Worksheet.Proofs.Block.Outline
import Worksheet.Proofs.Inert.Lines
import Worksheet.Proofs.Inert.Sections

namespace Worksheet

open Relocation (insertion)
open SourceLine (texts)

namespace Braces

/-- A blank line or a comment opens and closes nothing. -/
theorem balance_of_isGap {l : SourceLine} (h : l.IsGap) : balance l.text = 0 := by
  rcases h with hblank | hcomment
  · have htrim : Chars.trim l.text.toList = [] := String.ofList_eq_empty_iff.1 hblank
    rw [balance, hblank, ← braceBalance_trim, htrim]
    rfl
  · rw [balance, if_pos hcomment]

theorem depth_insert {x : SourceLine} (h : x.IsGap) (front back : List SourceLine) :
    depth (texts (front ++ x :: back)) = depth (texts (front ++ back)) := by
  simp [balance_of_isGap h]

end Braces

/-- A block is kept open by lines among which there is a blank one or a comment. -/
theorem SourceLine.KeepOpen.insert {front back : List SourceLine} {x : SourceLine}
    (h : KeepOpen (front ++ back)) (hx : x.IsGap) : KeepOpen (front ++ x :: back) := by
  intro before hbefore
  rcases List.prefix_or_prefix_of_prefix hbefore (List.prefix_append front _) with
    hshort | ⟨rest, rfl⟩
  · exact h before (hshort.trans (List.prefix_append front back))
  · rw [List.prefix_append_right_inj, List.prefix_cons_iff] at hbefore
    rcases hbefore with rfl | ⟨more, rfl, hmore⟩
    · rw [List.append_nil]
      exact h front (List.prefix_append front back)
    · rw [Braces.depth_insert hx]
      exact h _ ((List.prefix_append_right_inj front).2 hmore)

namespace Segment

variable (r : Relocation)

def relocate : Segment → Segment
  | gap line => gap (line.relocate r)
  | stray first rest => stray (first.relocate r) (rest.map (SourceLine.relocate r))
  | block opening body closing =>
    block (opening.relocate r) (body.map (SourceLine.relocate r)) (closing.relocate r)
  | tail opening body => tail (opening.relocate r) (body.map (SourceLine.relocate r))

theorem lines_relocate (s : Segment) :
    (s.relocate r).lines = s.lines.map (SourceLine.relocate r) := by
  cases s <;> simp [relocate, lines]

theorem flatMap_lines_relocate (segments : List Segment) :
    (segments.map (relocate r)).flatMap lines =
      (segments.flatMap lines).map (SourceLine.relocate r) := by
  rw [List.flatMap_map, List.map_flatMap]
  exact List.flatMap_congr fun s _ => lines_relocate r s

theorem texts_relocate (ls : List SourceLine) :
    texts (ls.map (SourceLine.relocate r)) = texts ls := by
  simp [texts, Function.comp_def]

theorem keepOpen_relocate {body : List SourceLine} (h : SourceLine.KeepOpen body) :
    SourceLine.KeepOpen (body.map (SourceLine.relocate r)) := by
  intro before hbefore
  obtain ⟨own, hown, rfl⟩ := List.prefix_map_iff.1 hbefore
  rw [texts_relocate]
  exact h own hown

theorem WellFormed.relocate {s : Segment} (h : s.WellFormed) : (s.relocate r).WellFormed := by
  cases h with
  | gap isGap => exact .gap isGap
  | stray each =>
    refine .stray fun l hl => ?_
    rw [← List.map_cons] at hl
    obtain ⟨own, hown, rfl⟩ := List.mem_map.1 hl
    exact each own hown
  | block opens keepOpen closes =>
    refine .block opens (keepOpen_relocate r keepOpen) ?_
    rw [← List.map_singleton, ← List.map_append, texts_relocate]
    exact closes
  | tail opens keepOpen => exact .tail opens (keepOpen_relocate r keepOpen)

theorem Joins.relocate {s t : Segment} (h : s.Joins t) : (s.relocate r).Joins (t.relocate r) := by
  cases s <;> cases t <;> exact h

end Segment

namespace Segmentation

variable {ls : List SourceLine} {segments : List Segment}

theorem relocate (h : Segmentation ls segments) (r : Relocation) :
    Segmentation (ls.map (SourceLine.relocate r)) (segments.map (Segment.relocate r)) := by
  refine ⟨?_, fun s hs => ?_, ?_⟩
  · rw [Segment.flatMap_lines_relocate, h.lines_eq]
  · obtain ⟨own, hown, rfl⟩ := List.mem_map.1 hs
    exact (h.wellFormed own hown).relocate r
  · rw [List.isChain_map]
    exact h.joins.imp fun _ _ hjoin => hjoin.relocate r

/-- A blank line or a comment may be put between the opening and the closing line of a block. -/
theorem insert {earlier later : List Segment} {opening closing x : SourceLine}
    {front back : List SourceLine} (hx : x.IsGap)
    (h : Segmentation ls (earlier ++ .block opening (front ++ back) closing :: later)) :
    Segmentation (earlier.flatMap Segment.lines ++ opening :: front ++ x :: back ++ closing ::
        later.flatMap Segment.lines)
      (earlier ++ .block opening (front ++ x :: back) closing :: later) := by
  refine ⟨by simp [Segment.lines], fun s hs => ?_, ?_⟩
  · rw [List.mem_append, List.mem_cons] at hs
    rcases hs with hs | rfl | hs
    · exact h.wellFormed s (by simp [hs])
    · cases h.wellFormed (.block opening (front ++ back) closing) (by simp) with
      | block opens keepOpen closes =>
        refine .block opens (keepOpen.insert hx) ?_
        rw [List.append_assoc, List.cons_append, Braces.depth_insert hx, ← List.append_assoc]
        exact closes
    · exact h.wellFormed s (by simp [hs])
  · obtain ⟨hearlier, hrest, hbetween⟩ := List.isChain_append.1 h.joins
    obtain ⟨hnext, hlater⟩ := List.isChain_cons.1 hrest
    refine List.isChain_append.2 ⟨hearlier, List.isChain_cons.2 ⟨fun t _ => trivial, hlater⟩, ?_⟩
    intro s hs t ht
    obtain rfl := Option.some.inj ht
    have hjoin := hbetween s hs _ rfl
    cases s <;> exact hjoin

end Segmentation

def BlockLines.relocate (r : Relocation) (t : BlockLines) : BlockLines :=
  ⟨t.opening.relocate r, t.body.map (SourceLine.relocate r), t.closing.relocate r⟩

/-- The leftover of a line moves with the line. -/
theorem SourceLine.leftover_relocate {r : Relocation} {l : SourceLine} (h : MovesWhole r l) :
    (l.relocate r).leftover = l.leftover.map (relocate r) := by
  rw [leftover, leftover, relocate_text]
  split
  · rfl
  · split
    · rfl
    · rename_i before after hsplit
      split
      · rfl
      · have hsize : Chars.size before ≤ Text.size l.text := by
          rw [Text.size, ← Chars.append_of_splitLast hsplit, Chars.size_append]
          exact Nat.le_add_right _ _
        have hstop := h (Chars.size before) hsize
        simp only [List.map_cons, List.map_nil, relocate, Span.relocate, hstop]

namespace Block

/-- The same lines make up the same block in another place if they are the same text there. -/
theorem ofLines_relocate {r : Relocation} {a b : String} {index : Nat} {t : BlockLines}
    (hindex : r.block index = index) (hclosing : t.closing.MovesWhole r)
    (htext : Text.slice? b (Span.relocate r ⟨t.opening.span.start, t.closing.span.stop⟩) =
      Text.slice? a ⟨t.opening.span.start, t.closing.span.stop⟩) :
    ofLines b index (t.relocate r) = (ofLines a index t).relocate r := by
  have hspan : (⟨(t.opening.relocate r).span.start, (t.closing.relocate r).span.stop⟩ : Span) =
      Span.relocate r ⟨t.opening.span.start, t.closing.span.stop⟩ := rfl
  rw [ofLines_eq, ofLines_eq, BlockLines.relocate, SourceLine.leftover_relocate hclosing, hspan,
    htext, relocate, hindex, List.map_append]
  rfl

end Block

namespace Segment

theorem filterMap_blockLines?_relocate (r : Relocation) (segments : List Segment) :
    (segments.map (relocate r)).filterMap blockLines? =
      (segments.filterMap blockLines?).map (BlockLines.relocate r) := by
  rw [List.filterMap_map, List.map_filterMap]
  refine List.filterMap_congr fun s _ => ?_
  cases s <;> rfl

/-- If the segment is a block, its lines are the same text in another script. -/
def SameText (r : Relocation) (a b : String) (s : Segment) : Prop :=
  ∀ t, s.blockLines? = some t → t.closing.MovesWhole r ∧
    Text.slice? b (Span.relocate r ⟨t.opening.span.start, t.closing.span.stop⟩) =
      Text.slice? a ⟨t.opening.span.start, t.closing.span.stop⟩

theorem blocksFrom_relocate {r : Relocation} {a b : String} {segments : List Segment}
    (hindex : ∀ index, r.block index = index) (h : ∀ s ∈ segments, s.SameText r a b)
    (index : Nat) : blocksFrom b index (segments.map (relocate r)) =
      (blocksFrom a index segments).map (Block.relocate r) := by
  rw [blocksFrom, blocksFrom, filterMap_blockLines?_relocate, List.zipIdx_map, List.map_map,
    List.map_map]
  refine List.map_congr_left fun p hp => ?_
  obtain ⟨s, hs, ht⟩ := List.mem_filterMap.1 (List.fst_mem_of_mem_zipIdx hp)
  obtain ⟨hclosing, htext⟩ := h s hs p.1 ht
  exact Block.ofLines_relocate (hindex p.2) hclosing htext

end Segment

/-- The number of a line counts the lines before it. -/
theorem SourceLine.number_of_split {script : String} {front back : List SourceLine}
    {l : SourceLine} (h : ofScript script = front ++ l :: back) : l.number = front.length + 1 := by
  have hnumbers := congrArg (·[front.length]?) (map_number_ofScript script)
  simp only [h, List.map_append, List.map_cons] at hnumbers
  rw [List.getElem?_append_right (by simp)] at hnumbers
  simp at hnumbers
  omega

/-- First lines of a script that end between the opening and the closing line of a block end with
lines of the block. -/
theorem Segmentation.exists_split {script : String} {first last : List SourceLine}
    {earlier later : List Segment} {opening closing : SourceLine} {body : List SourceLine}
    (h : Segmentation (SourceLine.ofScript script)
      (earlier ++ .block opening body closing :: later))
    (hscript : SourceLine.ofScript script = first ++ last)
    (hopening : opening.number ≤ first.length)
    (hclosing : first.length < closing.number) :
    ∃ front back, first = earlier.flatMap Segment.lines ++ opening :: front ∧ body = front ++ back ∧
      last = back ++ closing :: later.flatMap Segment.lines := by
  have hlines : SourceLine.ofScript script =
      (earlier.flatMap Segment.lines ++ [opening]) ++
        (body ++ closing :: later.flatMap Segment.lines) := by
    rw [← h.lines_eq]
    simp [Segment.lines]
  have hfirst : opening.number = (earlier.flatMap Segment.lines).length + 1 :=
    SourceLine.number_of_split (hlines.trans (List.append_assoc _ _ _))
  have hlast : closing.number =
      ((earlier.flatMap Segment.lines ++ [opening]) ++ body).length + 1 :=
    SourceLine.number_of_split (hlines.trans (List.append_assoc _ _ _).symm)
  simp only [List.length_append, List.length_singleton] at hlast
  obtain ⟨count, hcount⟩ : ∃ count,
      first.length = (earlier.flatMap Segment.lines ++ [opening]).length + count := by
    apply Nat.exists_eq_add_of_le
    rwa [List.length_append, List.length_singleton, ← hfirst]
  have hinside : count ≤ body.length := by
    simp only [List.length_append, List.length_singleton] at hcount
    omega
  have hends : (first, last) =
      ((first ++ last).take first.length, (first ++ last).drop first.length) := by
    simp
  rw [← hscript, hlines, hcount, List.take_length_add_append, List.drop_length_add_append,
    List.take_append_of_le_length hinside, List.drop_append_of_le_length hinside] at hends
  obtain ⟨rfl, rfl⟩ := Prod.mk.inj hends
  exact ⟨body.take count, body.drop count, by simp, (List.take_append_drop count body).symm, rfl⟩

theorem Segment.warning?_relocate {r : Relocation} {m n : Nat} (h : r.byte m = n) (s : Segment) :
    (s.relocate r).warning? n = (s.warning? m).map (StructureWarning.relocate r) := by
  cases s with
  | stray first rest =>
    have hlast : (rest.map (SourceLine.relocate r)).getLastD (first.relocate r) =
        (rest.getLastD first).relocate r := by
      cases hrest : rest.getLast? with
      | none => simp [List.getLastD_eq_getLast?, hrest]
      | some l => simp [List.getLastD_eq_getLast?, hrest]
    simp only [relocate, warning?, hlast]
    rfl
  | tail opening body =>
    rw [← h]
    rfl
  | gap | block => rfl

theorem Segment.filterMap_warning?_relocate {r : Relocation} {m n : Nat} (h : r.byte m = n)
    (segments : List Segment) : (segments.map (relocate r)).filterMap (warning? n) =
      (segments.filterMap (warning? m)).map (StructureWarning.relocate r) := by
  rw [List.filterMap_map, List.map_filterMap]
  exact List.filterMap_congr fun s _ => warning?_relocate h s

/-- A list without repetitions, changed in one place in a way of its own. -/
theorem map_update_of_nodup {α β : Type} [DecidableEq α] {xs ys : List α} {a : α}
    (h : (xs ++ a :: ys).Nodup) (f : α → β) (b : β) :
    (xs ++ a :: ys).map (fun x => if x = a then b else f x) = xs.map f ++ b :: ys.map f := by
  have hnot : a ∉ xs ++ ys := (List.nodup_cons.1 (List.nodup_middle.1 h)).1
  have hother : ∀ x ∈ xs ++ ys, (if x = a then b else f x) = f x := by
    intro x hx
    apply if_neg
    rintro rfl
    exact hnot hx
  rw [List.map_append, List.map_cons, if_pos rfl,
    List.map_congr_left fun x hx => hother x (List.mem_append_left _ hx),
    List.map_congr_left fun x hx => hother x (List.mem_append_right _ hx)]

section Insertion

variable {before line : String} (hline : '\n' ∉ line.toList) (after : String)

/-- Segments that stand before the line keep their text. -/
theorem Segment.sameText_before {s : Segment}
    (hs : ∀ l ∈ s.lines, l ∈ SourceLine.ofScript before) :
    s.SameText (insertion before line) (before ++ "\n" ++ after)
      (before ++ "\n" ++ line ++ "\n" ++ after) := by
  intro t ht
  obtain ⟨opening, body, closing⟩ := t
  cases s with
  | block =>
    cases ht
    have hopening := hs opening (by simp [lines])
    have hclosing := hs closing (by simp [lines])
    refine ⟨SourceLine.movesWhole_of_mem after ?_, ?_⟩
    · rw [SourceLine.ofScript_append]
      exact List.mem_append_left _ hclosing
    · exact Text.slice?_insertion_before after (SourceLine.liesIn_of_mem hopening).start_le
        (SourceLine.liesIn_of_mem hclosing).stop_le
  | gap | stray | tail => cases ht

/-- Segments that stand after the line keep their text. -/
theorem Segment.sameText_after {s : Segment}
    (hs : ∀ l ∈ s.lines, l ∈ (SourceLine.ofScript after).map (SourceLine.move (.after before))) :
    s.SameText (insertion before line) (before ++ "\n" ++ after)
      (before ++ "\n" ++ line ++ "\n" ++ after) := by
  intro t ht
  obtain ⟨opening, body, closing⟩ := t
  cases s with
  | block =>
    cases ht
    have hopening := hs opening (by simp [lines])
    have hclosing := hs closing (by simp [lines])
    refine ⟨SourceLine.movesWhole_of_mem after ?_, ?_⟩
    · rw [SourceLine.ofScript_append]
      exact List.mem_append_right _ hclosing
    · obtain ⟨first, -, rfl⟩ := List.mem_map.1 hopening
      obtain ⟨last, -, rfl⟩ := List.mem_map.1 hclosing
      exact Text.slice?_insertion_after after ⟨first.span.start, last.span.stop⟩
  | gap | stray | tail => cases ht

/-- Two parts of a script with a line break between them in the middle of a block: the first ends
with the opening line of the block and some lines of it, and the second begins with the others. -/
structure Segmentation.Between (before after : String) (earlier : List Segment)
    (opening : SourceLine) (front back : List SourceLine) (closing : SourceLine)
    (later : List Segment) : Prop where
  segmentation : Segmentation (SourceLine.ofScript (before ++ "\n" ++ after))
    (earlier ++ .block opening (front ++ back) closing :: later)
  first : SourceLine.ofScript before = earlier.flatMap Segment.lines ++ opening :: front
  last : (SourceLine.ofScript after).map (SourceLine.move (.after before)) =
    back ++ closing :: later.flatMap Segment.lines

variable {after} in
theorem Outline.exists_between {b : Block}
    (hb : b ∈ (ofScript (before ++ "\n" ++ after)).blocks)
    (hopening : b.startLine ≤ (SourceLine.ofScript before).length)
    (hclosing : (SourceLine.ofScript before).length < b.endLine) :
    ∃ earlier opening front back closing later,
      Segmentation.Between before after earlier opening front back closing later ∧
        b = .ofLines (before ++ "\n" ++ after) (earlier.filterMap Segment.blockLines?).length
          ⟨opening, front ++ back, closing⟩ := by
  obtain ⟨segments, h⟩ :=
    Segmentation.exists_segments (SourceLine.ofScript (before ++ "\n" ++ after))
  rw [blocks_of_segmentation h] at hb
  obtain ⟨earlier, ⟨opening, body, closing⟩, later, rfl, rfl⟩ := Segment.exists_of_mem_blocksFrom hb
  rw [Block.ofLines_eq] at hopening hclosing
  obtain ⟨front, back, hfirst, rfl, hlast⟩ :=
    h.exists_split (SourceLine.ofScript_append before after) hopening hclosing
  rw [Nat.zero_add]
  exact ⟨earlier, opening, front, back, closing, later, ⟨h, hfirst, hlast⟩, rfl⟩

/-- The lines of a block of which the first stand before a line and the last after it. -/
def BlockLines.around (before line : String) (opening : SourceLine) (front back : List SourceLine)
    (closing : SourceLine) : BlockLines :=
  ⟨opening.relocate (insertion before line),
    front.map (SourceLine.relocate (insertion before line)) ++
      SourceLine.next before line :: back.map (SourceLine.relocate (insertion before line)),
    closing.relocate (insertion before line)⟩

namespace Segmentation.Between

variable {after} {earlier later : List Segment} {opening closing : SourceLine}
  {front back : List SourceLine} (h : Between before after earlier opening front back closing later)

include h

include hline in
/-- The segments of the script with a blank line or a comment between the two parts. -/
theorem insert (hgap : (SourceLine.next before line).IsGap) :
    Segmentation (SourceLine.ofScript (before ++ "\n" ++ line ++ "\n" ++ after))
      (earlier.map (Segment.relocate (insertion before line)) ++
        .block (opening.relocate (insertion before line))
          (front.map (SourceLine.relocate (insertion before line)) ++
            SourceLine.next before line :: back.map (SourceLine.relocate (insertion before line)))
          (closing.relocate (insertion before line)) ::
        later.map (Segment.relocate (insertion before line))) := by
  have hrelocated := h.segmentation.relocate (insertion before line)
  rw [List.map_append, List.map_cons, Segment.relocate, List.map_append] at hrelocated
  have hinserted := hrelocated.insert hgap
  rw [Segment.flatMap_lines_relocate, Segment.flatMap_lines_relocate] at hinserted
  rw [SourceLine.ofScript_insert hline, h.first, h.last]
  simpa using hinserted

/-- The lines of the block that stand before the break. -/
theorem filter_lines : (front ++ back ++ closing.leftover).filter
    (fun l => l.number ≤ (SourceLine.ofScript before).length) = front := by
  have hfront : ∀ l ∈ front, l.number ≤ (SourceLine.ofScript before).length := by
    intro l hl
    apply (SourceLine.number_le_of_mem _).2
    rw [h.first]
    simp [hl]
  have hafter : ∀ l ∈ back ++ closing :: later.flatMap Segment.lines,
      (SourceLine.ofScript before).length < l.number := by
    intro l hl
    rw [← h.last] at hl
    obtain ⟨own, hown, rfl⟩ := List.mem_map.1 hl
    have hpos := (SourceLine.number_le_of_mem hown).1
    show _ < own.number + (SourceLine.ofScript before).length
    omega
  have hback : ∀ l ∈ back ++ closing.leftover,
      ¬ l.number ≤ (SourceLine.ofScript before).length := by
    intro l hl
    rcases List.mem_append.1 hl with hl | hl
    · exact Nat.not_le.2 (hafter l (by simp [hl]))
    · rw [SourceLine.number_of_mem_leftover hl]
      exact Nat.not_le.2 (hafter closing (by simp))
  have hkept : front.filter (fun l => l.number ≤ (SourceLine.ofScript before).length) = front :=
    List.filter_eq_self.2 fun l hl => decide_eq_true (hfront l hl)
  have hnone : (back ++ closing.leftover).filter
      (fun l => l.number ≤ (SourceLine.ofScript before).length) = [] :=
    List.filter_eq_nil_iff.2 fun l hl => by simpa using hback l hl
  rw [List.append_assoc, List.filter_append, hkept, hnone, List.append_nil]

/-- The block with the line in it says the same as before. -/
theorem counterpart (hinert : Sections.Inert front line) (index : Nat) :
    Block.Counterpart (insertion before line)
      (.ofLines (before ++ "\n" ++ after) index ⟨opening, front ++ back, closing⟩)
      (.ofLines (before ++ "\n" ++ line ++ "\n" ++ after) index
        (.around before line opening front back closing)) := by
  have hclosing : closing.MovesWhole (insertion before line) := by
    apply SourceLine.movesWhole_of_mem after
    rw [SourceLine.ofScript_append, h.last]
    simp
  have hnext : Sections.Inert front (SourceLine.next before line).text :=
    hinert.congr (SourceLine.trim_next before line)
  have hnumber : (SourceLine.next before line).number = (SourceLine.ofScript before).length + 1 :=
    Nat.add_comm 1 _
  rw [Block.ofLines_eq, Block.ofLines_eq, BlockLines.around]
  refine Block.counterpart_of_inert rfl rfl rfl (List.append_assoc front back closing.leftover) ?_
    hnext fun number => ?_
  · rw [SourceLine.leftover_relocate hclosing]
    simp
  · rw [hnumber]
    exact Relocation.insertion_line_ne before line number

include hline

variable (hgap : (SourceLine.next before line).IsGap)

include hgap

theorem slice?_insert {index : Nat} {c : Block}
    (hc : c = .ofLines (before ++ "\n" ++ line ++ "\n" ++ after) index
      (.around before line opening front back closing)) :
    Text.slice? (before ++ "\n" ++ line ++ "\n" ++ after) c.span = some c.text := by
  subst hc
  have hread := (h.insert hline hgap).readOff_ofLines (List.mem_append_right _ List.mem_cons_self)
    index
  exact hread.text

theorem warnings_insert : (Outline.ofScript (before ++ "\n" ++ line ++ "\n" ++ after)).warnings =
    (Outline.ofScript (before ++ "\n" ++ after)).warnings.map
      (StructureWarning.relocate (insertion before line)) := by
  have hold := (Outline.readOff_of_segmentation h.segmentation).warnings
  have hnew := (Outline.readOff_of_segmentation (h.insert hline hgap)).warnings
  have hsize := Relocation.insertion_byte_size before line after
  rw [List.filterMap_append, List.filterMap_cons] at hold hnew
  rw [hold, hnew, Segment.filterMap_warning?_relocate hsize,
    Segment.filterMap_warning?_relocate hsize, List.map_append]
  rfl

theorem blocks_insert {b c : Block}
    (hb : b = .ofLines (before ++ "\n" ++ after) (earlier.filterMap Segment.blockLines?).length
      ⟨opening, front ++ back, closing⟩)
    (hc : c = .ofLines (before ++ "\n" ++ line ++ "\n" ++ after)
      (earlier.filterMap Segment.blockLines?).length
      (.around before line opening front back closing)) :
    (Outline.ofScript (before ++ "\n" ++ line ++ "\n" ++ after)).blocks =
      (Outline.ofScript (before ++ "\n" ++ after)).blocks.map fun d =>
        if d = b then c else d.relocate (insertion before line) := by
  have hold := Outline.blocks_of_segmentation h.segmentation
  have hnew := Outline.blocks_of_segmentation (h.insert hline hgap)
  have hnodup := (Outline.nodup_index_blocks (before ++ "\n" ++ after)).of_map
  have hearlier : ∀ s ∈ earlier, s.SameText (insertion before line) (before ++ "\n" ++ after)
      (before ++ "\n" ++ line ++ "\n" ++ after) := by
    refine fun s hs => Segment.sameText_before after fun l hl => ?_
    rw [h.first]
    exact List.mem_append_left _ (List.mem_flatMap.2 ⟨s, hs, hl⟩)
  have hlater : ∀ s ∈ later, s.SameText (insertion before line) (before ++ "\n" ++ after)
      (before ++ "\n" ++ line ++ "\n" ++ after) := by
    refine fun s hs => Segment.sameText_after after fun l hl => ?_
    rw [h.last]
    exact List.mem_append_right _ (List.mem_cons_of_mem _ (List.mem_flatMap.2 ⟨s, hs, hl⟩))
  have hcount : ((earlier.map (Segment.relocate (insertion before line))).filterMap
      Segment.blockLines?).length = (earlier.filterMap Segment.blockLines?).length := by
    rw [Segment.filterMap_blockLines?_relocate, List.length_map]
  rw [Segment.blocksFrom_append, Segment.blocksFrom_block, Nat.zero_add, ← hb] at hold
  rw [hold] at hnodup
  rw [Segment.blocksFrom_append, hcount, Segment.blocksFrom_block, Nat.zero_add,
    Segment.blocksFrom_relocate (fun _ => rfl) hearlier,
    Segment.blocksFrom_relocate (fun _ => rfl) hlater] at hnew
  rw [hold, hnew, map_update_of_nodup hnodup, hc]
  rfl

end Segmentation.Between

include hline in
/-- The blocks and warnings of a script into which a line is put that means nothing, between the
opening and the closing line of a block. -/
theorem Outline.exists_insert {b : Block} (hb : b ∈ (ofScript (before ++ "\n" ++ after)).blocks)
    (hopening : b.startLine ≤ (SourceLine.ofScript before).length)
    (hclosing : (SourceLine.ofScript before).length < b.endLine)
    (hinert : Sections.Inert
      (b.lines.filter fun l => l.number ≤ (SourceLine.ofScript before).length) line) :
    (ofScript (before ++ "\n" ++ line ++ "\n" ++ after)).warnings =
        (ofScript (before ++ "\n" ++ after)).warnings.map
          (StructureWarning.relocate (insertion before line)) ∧
      ∃ c, b.Counterpart (insertion before line) c ∧
        Text.slice? (before ++ "\n" ++ line ++ "\n" ++ after) c.span = some c.text ∧
          (ofScript (before ++ "\n" ++ line ++ "\n" ++ after)).blocks =
            (ofScript (before ++ "\n" ++ after)).blocks.map fun d =>
              if d = b then c else d.relocate (insertion before line) := by
  obtain ⟨earlier, opening, front, back, closing, later, h, rfl⟩ :=
    exists_between hb hopening hclosing
  have hfront : Sections.Inert front line := by
    rw [Block.ofLines_eq, h.filter_lines] at hinert
    exact hinert
  have hgap : (SourceLine.next before line).IsGap :=
    (hfront.congr (SourceLine.trim_next before line)).isGap
  exact ⟨h.warnings_insert hline hgap, _, h.counterpart hfront _, h.slice?_insert hline hgap rfl,
    h.blocks_insert hline hgap rfl rfl⟩

end Insertion

end Worksheet
