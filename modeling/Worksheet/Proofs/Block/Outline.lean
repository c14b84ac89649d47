import Worksheet.Proofs.Block.Segments
import Worksheet.Proofs.Results

namespace Worksheet

open SourceLine (texts)

namespace Place

variable {l : SourceLine}

theorem step_of_isGap (h : l.IsGap) (stray : Option Span) :
    step (.outside stray) l = (.outside none, strayWarning stray) := by
  rw [step]
  dsimp only
  rw [if_pos (SourceLine.isGap_iff.1 h)]

theorem not_gap_iff : ((Text.trim l.text).isEmpty || Text.isComment (Text.trim l.text)) = false ↔
    ¬ l.IsGap := by
  rw [SourceLine.isGap_iff, Bool.not_eq_true]

theorem step_of_opens (h : l.Opens) (stray : Option Span) :
    step (.outside stray) l = (.inside (.ofLine l), strayWarning stray) := by
  rw [step]
  dsimp only
  rw [not_gap_iff.2 h.not_isGap, h]
  rfl

theorem step_of_stray (hgap : ¬ l.IsGap) (hopens : ¬ l.Opens) (stray : Option Span) :
    step (.outside stray) l =
      (.outside (some ⟨(stray.map (·.start)).getD l.span.start, l.span.stop⟩), []) := by
  have hbrace : (Text.trim l.text == "\x7b") = false := beq_eq_false_iff_ne.2 hopens
  rw [step]
  dsimp only
  rw [not_gap_iff.2 hgap, hbrace]
  rfl

/-- A run of stray lines reaches from its first to its last line. -/
theorem run_of_stray {rest : List SourceLine} (h : ∀ k ∈ rest, ¬ k.IsGap ∧ ¬ k.Opens)
    (start : Nat) (l : SourceLine) : run (.outside (some ⟨start, l.span.stop⟩)) rest =
      (.outside (some ⟨start, (rest.getLastD l).span.stop⟩), []) := by
  induction rest generalizing l with
  | nil => rfl
  | cons k rest ih =>
    obtain ⟨hgap, hopens⟩ := h k (by simp)
    rw [run_cons, step_of_stray hgap hopens, List.getLastD_cons]
    exact ih (fun m hm => h m (by simp [hm])) k

theorem run_of_keepOpen {body : List SourceLine} (h : SourceLine.KeepOpen body)
    (opening : SourceLine) : run (.inside (.ofLine opening)) body =
      (.inside ((OpenBlock.ofLine opening).extend body), []) := by
  rcases run_inside_cases (b := .ofLine opening) Int.one_pos body with
    ⟨-, hrun⟩ | ⟨inner, last, after, rfl, -, hclose, -⟩
  · exact hrun
  · exact absurd ⟨after, by simp⟩ (Segmentation.not_prefix_of_closes h hclose)

theorem step_of_closes {body : List SourceLine} {opening closing : SourceLine}
    (h : SourceLine.KeepOpen body) (hclose : 1 + Braces.depth (texts (body ++ [closing])) ≤ 0) :
    step (.inside ((OpenBlock.ofLine opening).extend body)) closing =
      (.outside none,
        [.block (((OpenBlock.ofLine opening).extend body).addLast closing) closing]) := by
  have hdepth : ((OpenBlock.ofLine opening).extend body).depth =
      1 + Braces.depth (texts body) := rfl
  have hbody := h body (List.prefix_refl _)
  apply step_inside_of_not_pos
  · rw [hdepth]
    omega
  · simp only [SourceLine.texts_append, SourceLine.texts_cons, SourceLine.texts_nil,
      Braces.depth_append, Braces.depth_cons, Braces.depth_nil] at hclose
    rw [hdepth]
    omega

end Place

/-- What the reading of a segment brings to light, in a script of the given size. -/
def Segment.findings (size : Nat) : Segment → List Finding
  | gap _ => []
  | stray first rest =>
    [.warning ⟨.stray, ⟨first.span.start, (rest.getLastD first).span.stop⟩⟩]
  | block opening body closing =>
    [.block (((OpenBlock.ofLine opening).extend body).addLast closing) closing]
  | tail opening _ => [.warning ⟨.unclosed opening.number, ⟨opening.span.start, size⟩⟩]

/-- Lines are read segment by segment. A run of stray text that is under way is reported first,
since what follows does not go on it. -/
theorem Segmentation.findings_run {ls : List SourceLine} {segments : List Segment}
    (h : Segmentation ls segments) (size : Nat) (stray : Option Span)
    (hjoin : stray = none ∨ ∀ first run, ∀ t ∈ segments.head?, (Segment.stray first run).Joins t) :
    (Place.run (.outside stray) ls).2 ++ (Place.run (.outside stray) ls).1.finish size =
      strayWarning stray ++ segments.flatMap (Segment.findings size) := by
  induction segments generalizing ls stray with
  | nil =>
    obtain rfl : [] = ls := h.lines_eq
    exact (List.append_nil _).symm
  | cons s segments ih =>
    obtain ⟨hs, hnext, rest, rfl, hrest⟩ := h.of_cons
    rw [List.flatMap_cons, Place.run_append]
    cases hs with
    | gap isGap =>
      rw [Segment.lines, Place.run_cons, Place.step_of_isGap isGap]
      have hmore := ih hrest none (Or.inl rfl)
      rw [List.append_assoc]
      simpa [Place.run, strayWarning, Segment.findings] using hmore
    | @stray first run each =>
      obtain rfl : stray = none := by
        rcases hjoin with hnone | hjoin
        · exact hnone
        · exact (hjoin first run _ rfl).elim
      obtain ⟨hgap, hopens⟩ := each first (by simp)
      have hrun : Place.run (.outside none) (Segment.stray first run).lines =
          (.outside (some ⟨first.span.start, (run.getLastD first).span.stop⟩), []) := by
        rw [Segment.lines, Place.run_cons, Place.step_of_stray hgap hopens]
        exact Place.run_of_stray (fun k hk => each k (by simp [hk])) _ first
      have hmore := ih hrest (some ⟨first.span.start, (run.getLastD first).span.stop⟩)
        (Or.inr fun _ _ t ht => (hnext t ht).of_stray)
      rw [hrun]
      exact hmore
    | @block opening body closing opens keepOpen closes =>
      have hrun : Place.run (.outside stray) (Segment.block opening body closing).lines =
          (.outside none, strayWarning stray ++
            [.block (((OpenBlock.ofLine opening).extend body).addLast closing) closing]) := by
        rw [Segment.lines, Place.run_cons, Place.step_of_opens opens, Place.run_append,
          Place.run_of_keepOpen keepOpen, Place.run_cons, Place.step_of_closes keepOpen closes]
        rfl
      have hmore := ih hrest none (Or.inl rfl)
      rw [hrun]
      dsimp only
      rw [List.append_assoc, List.append_assoc, hmore]
      rfl
    | @tail opening body opens keepOpen =>
      obtain ⟨rfl, rfl⟩ := hrest.nil_of_tail hnext
      rw [Segment.lines, Place.run_cons, Place.step_of_opens opens,
        Place.run_of_keepOpen keepOpen]
      simp [Place.run, Place.finish, OpenBlock.extend, OpenBlock.ofLine, Segment.findings]

/-- A text in which more braces are closed than opened holds a closing brace. -/
theorem mem_of_braceBalance_neg {cs : List Char} {inString escaped : Bool}
    (h : braceBalance inString escaped cs < 0) : '\x7d' ∈ cs := by
  induction cs generalizing inString escaped with
  | nil => cases h
  | cons c cs ih =>
    rw [braceBalance] at h
    split at h
    · split at h
      · exact List.mem_cons_of_mem c (ih h)
      · split at h <;> exact List.mem_cons_of_mem c (ih h)
    · split at h
      · exact List.mem_cons_of_mem c (ih h)
      · split at h
        · have hrest : braceBalance false false cs < 0 := by omega
          exact List.mem_cons_of_mem c (ih hrest)
        · split at h
          · rename_i hc
            simp [eq_of_beq hc]
          · exact List.mem_cons_of_mem c (ih h)

/-- The line that closes a block holds a closing brace. -/
theorem SourceLine.mem_of_closes {body : List SourceLine} {closing : SourceLine}
    (h : KeepOpen body) (hclose : 1 + Braces.depth (texts (body ++ [closing])) ≤ 0) :
    '\x7d' ∈ closing.text.toList := by
  have hbody := h body (List.prefix_refl _)
  have hneg : Braces.balance closing.text < 0 := by
    simp only [texts_append, texts_cons, texts_nil, Braces.depth_append, Braces.depth_cons,
      Braces.depth_nil] at hclose
    omega
  rw [Braces.balance] at hneg
  split at hneg
  · cases hneg
  · exact mem_of_braceBalance_neg hneg

/-- What a closing line leaves to its block. -/
def SourceLine.leftover (l : SourceLine) : List SourceLine :=
  if Text.trim l.text == "\x7d" then []
  else match Chars.splitLast '\x7d' l.text.toList with
    | none => []
    | some (before, _) =>
      if before.all Chars.isBlank then []
      else [⟨l.number, String.ofList before,
        ⟨l.span.start, l.span.start + Chars.size before⟩⟩]

theorem SourceLine.number_of_mem_leftover {k l : SourceLine} (h : k ∈ l.leftover) :
    k.number = l.number := by
  rw [leftover] at h
  split at h
  · cases h
  · split at h
    · cases h
    · split at h
      · cases h
      · rw [List.mem_singleton.1 h]

theorem OpenBlock.lines_addLast_eq (b : OpenBlock) (l : SourceLine) :
    (b.addLast l).lines = b.lines ++ l.leftover := by
  rw [addLast, SourceLine.leftover]
  by_cases hbrace : Text.trim l.text = "\x7d"
  · simp [hbrace]
  · cases Chars.splitLast '\x7d' l.text.toList with
    | none => simp
    | some cut =>
      by_cases hblank : cut.1.all Chars.isBlank = true
      · simp [hblank]
      · simp [hbrace, hblank, add]

/-- The leftover is the text before the last brace, if the brace does not stand alone and the text
is not blank. -/
theorem SourceLine.leftover_of_split {l : SourceLine} {before after : List Char}
    (hsplit : l.text.toList = before ++ '\x7d' :: after) (hafter : '\x7d' ∉ after) :
    l.leftover = if Text.trim l.text = "\x7d" ∨ before.all Chars.isBlank then []
      else [⟨l.number, String.ofList before,
        ⟨l.span.start, l.span.start + Chars.size before⟩⟩] := by
  rw [leftover, hsplit, Chars.splitLast_append_cons before hafter]
  by_cases hbrace : Text.trim l.text = "\x7d"
  · simp [hbrace]
  · simp [hbrace]

@[simp] theorem OpenBlock.startLine_addLast (b : OpenBlock) (l : SourceLine) :
    (b.addLast l).startLine = b.startLine := by
  rw [addLast]
  split
  · rfl
  · split
    · rfl
    · split <;> rfl

@[simp] theorem OpenBlock.start_addLast (b : OpenBlock) (l : SourceLine) :
    (b.addLast l).start = b.start := by
  rw [addLast]
  split
  · rfl
  · split
    · rfl
    · split <;> rfl

/-- The opening line of a closed block, the lines up to the closing one, and the closing line. -/
structure BlockLines where
  opening : SourceLine
  body : List SourceLine
  closing : SourceLine

/-- The block that some lines make up in a script. -/
def Block.ofLines (script : String) (index : Nat) (t : BlockLines) : Block :=
  (((OpenBlock.ofLine t.opening).extend t.body).addLast t.closing).close script index t.closing

theorem Block.ofLines_eq (script : String) (index : Nat) (t : BlockLines) : ofLines script index t =
    ⟨index, t.opening.number, t.closing.number, ⟨t.opening.span.start, t.closing.span.stop⟩,
      (Text.slice? script ⟨t.opening.span.start, t.closing.span.stop⟩).getD "",
      t.body ++ t.closing.leftover⟩ := by
  rw [ofLines, OpenBlock.close, OpenBlock.lines_addLast_eq, OpenBlock.startLine_addLast,
    OpenBlock.start_addLast]
  rfl

/-- What the block that the lines of a segment make up says of its script. -/
structure Block.ReadOff (script : String) (opening : SourceLine) (body : List SourceLine)
    (closing : SourceLine) (b : Block) : Prop where
  startLine : b.startLine = opening.number
  endLine : b.endLine = closing.number
  span : b.span = ⟨opening.span.start, closing.span.stop⟩
  text : Text.slice? script b.span = some b.text
  body_eq : body = (SourceLine.ofScript script).filter fun l =>
    b.startLine < l.number && l.number < b.endLine
  lines : ∃ before after, closing.text.toList = before ++ '\x7d' :: after ∧ '\x7d' ∉ after ∧
    b.lines = body ++
      if Text.trim closing.text = "\x7d" ∨ before.all Chars.isBlank then []
      else [⟨b.endLine, String.ofList before,
        ⟨closing.span.start, closing.span.start + Chars.size before⟩⟩]
  slices : ∀ l ∈ b.lines, Text.slice? script l.span = some l.text

namespace Segment

def isBlock : Segment → Bool
  | block .. => true
  | _ => false

def blockLines? : Segment → Option BlockLines
  | block opening body closing => some ⟨opening, body, closing⟩
  | _ => none

/-- The blocks that some segments make up in a script, numbered from the given number on. -/
def blocksFrom (script : String) (index : Nat) (segments : List Segment) : List Block :=
  ((segments.filterMap blockLines?).zipIdx index).map fun p => .ofLines script p.2 p.1

@[simp] theorem blocksFrom_append (script : String) (index : Nat) (xs ys : List Segment) :
    blocksFrom script index (xs ++ ys) = blocksFrom script index xs ++
      blocksFrom script (index + (xs.filterMap blockLines?).length) ys := by
  simp [blocksFrom, List.zipIdx_append]

@[simp] theorem blocksFrom_block (script : String) (index : Nat) (opening : SourceLine)
    (body : List SourceLine) (closing : SourceLine) (segments : List Segment) :
    blocksFrom script index (.block opening body closing :: segments) =
      .ofLines script index ⟨opening, body, closing⟩ ::
        blocksFrom script (index + 1) segments := by
  simp [blocksFrom, blockLines?]

/-- A block comes of one of the segments and has its number from those before. -/
theorem exists_of_mem_blocksFrom {script : String} {segments : List Segment} {index : Nat}
    {b : Block} (h : b ∈ blocksFrom script index segments) : ∃ earlier t later,
      segments = earlier ++ .block t.opening t.body t.closing :: later ∧
        b = .ofLines script (index + (earlier.filterMap blockLines?).length) t := by
  induction segments generalizing index with
  | nil => cases h
  | cons s rest ih =>
    cases s with
    | block opening body closing =>
      rw [blocksFrom_block, List.mem_cons] at h
      rcases h with rfl | h
      · exact ⟨[], ⟨opening, body, closing⟩, rest, rfl, rfl⟩
      · obtain ⟨earlier, t, later, rfl, rfl⟩ := ih h
        refine ⟨.block opening body closing :: earlier, t, later, rfl, ?_⟩
        simp [blockLines?, Nat.add_comm, Nat.add_left_comm]
    | gap | stray | tail =>
      obtain ⟨earlier, t, later, rfl, rfl⟩ := ih h
      exact ⟨_ :: earlier, t, later, rfl, rfl⟩

/-- What is wrong with a segment that is no block, in a script of the given size. -/
def warning? (size : Nat) : Segment → Option StructureWarning
  | stray first rest => some ⟨.stray, ⟨first.span.start, (rest.getLastD first).span.stop⟩⟩
  | tail opening _ => some ⟨.unclosed opening.number, ⟨opening.span.start, size⟩⟩
  | _ => none

/-- The block that comes of a segment. -/
def Becomes (script : String) (s : Segment) (b : Block) : Prop :=
  ∃ opening body closing, s = block opening body closing ∧ b.ReadOff script opening body closing

end Segment

/-- An outline that says of a script what its segments do. -/
structure Outline.ReadOff (script : String) (segments : List Segment) (o : Outline) : Prop where
  indices : o.blocks.map (·.index) = List.range o.blocks.length
  blocks : List.Forall₂ (Segment.Becomes script) (segments.filter Segment.isBlock) o.blocks
  apart : o.blocks.Pairwise fun a b => a.span.stop < b.span.start
  warnings : o.warnings = segments.filterMap (Segment.warning? (Text.size script))

namespace Segmentation

variable {script : String} {segments : List Segment}
  (h : Segmentation (SourceLine.ofScript script) segments)

include h

theorem split_of_mem {s : Segment} (hs : s ∈ segments) :
    ∃ front back, SourceLine.ofScript script = front ++ s.lines ++ back := by
  obtain ⟨before, after, rfl⟩ := List.append_of_mem hs
  refine ⟨before.flatMap Segment.lines, after.flatMap Segment.lines, ?_⟩
  rw [← h.lines_eq]
  simp

theorem standsIn {s : Segment} (hs : s ∈ segments) : ∀ l ∈ s.lines, l.StandsIn script := by
  intro l hl
  apply SourceLine.standsIn_of_mem
  rw [← h.lines_eq]
  exact List.mem_flatMap.2 ⟨s, hs, hl⟩

/-- All lines of a segment come before all lines of a later one. -/
theorem pairwise : segments.Pairwise fun s t => ∀ k ∈ s.lines, ∀ l ∈ t.lines, k.Before l := by
  have hlines := SourceLine.pairwise_ofScript script
  rw [← h.lines_eq, List.pairwise_flatMap] at hlines
  exact hlines.2

/-- The lines of a segment are in their order. -/
theorem pairwise_lines {s : Segment} (hs : s ∈ segments) : s.lines.Pairwise SourceLine.Before := by
  obtain ⟨front, back, hsplit⟩ := h.split_of_mem hs
  have hlines := SourceLine.pairwise_ofScript script
  rw [hsplit] at hlines
  exact (List.pairwise_append.1 (List.pairwise_append.1 hlines).1).2.1

variable {opening closing : SourceLine} {body : List SourceLine}
  (hs : Segment.block opening body closing ∈ segments)

include hs

theorem filter_body : (SourceLine.ofScript script).filter (fun l =>
    opening.number < l.number && l.number < closing.number) = body := by
  obtain ⟨front, back, hsplit⟩ := h.split_of_mem hs
  have hlines := SourceLine.pairwise_ofScript script
  have hblock := h.pairwise_lines hs
  rw [hsplit] at hlines
  obtain ⟨hlines, -, hback⟩ := List.pairwise_append.1 hlines
  obtain ⟨-, -, hfront⟩ := List.pairwise_append.1 hlines
  obtain ⟨hopening, hinner⟩ := List.pairwise_cons.1 hblock
  obtain ⟨-, -, hclosing⟩ := List.pairwise_append.1 hinner
  have hbefore : ∀ l ∈ front, ¬ opening.number < l.number := by
    intro l hl
    have := (hfront l hl opening (by simp [Segment.lines])).number
    omega
  have hafter : ∀ l ∈ back, ¬ l.number < closing.number := by
    intro l hl
    have := (hback closing (by simp [Segment.lines]) l hl).number
    omega
  have hbody : ∀ l ∈ body, opening.number < l.number ∧ l.number < closing.number := by
    intro l hl
    exact ⟨(hopening l (by simp [hl])).number, (hclosing l hl closing (by simp)).number⟩
  rw [hsplit, List.filter_append, List.filter_append, Segment.lines]
  have hnone : front.filter (fun l => opening.number < l.number && l.number < closing.number) =
      [] :=
    List.filter_eq_nil_iff.2 fun l hl => by simp [hbefore l hl]
  have hrest : back.filter (fun l => opening.number < l.number && l.number < closing.number) = [] :=
    List.filter_eq_nil_iff.2 fun l hl => by simp [hafter l hl]
  have hall : body.filter (fun l => opening.number < l.number && l.number < closing.number) =
      body :=
    List.filter_eq_self.2 fun l hl => by simp [hbody l hl]
  simp [hnone, hrest, hall]

theorem bounds_block : Text.Bounds script ⟨opening.span.start, closing.span.stop⟩ := by
  have hstands := h.standsIn hs
  have hopening := (hstands opening (by simp [Segment.lines])).bounds
  have hclosing := (hstands closing (by simp [Segment.lines])).bounds
  have hbefore : opening.Before closing :=
    (List.pairwise_cons.1 (h.pairwise_lines hs)).1 closing (by simp)
  have hle : opening.span.start ≤ closing.span.stop := by
    have hfirst := hopening.start_le_stop
    have hlast := hclosing.start_le_stop
    have hmid := hbefore.span
    omega
  exact ⟨hle, hopening.start_boundary, hclosing.stop_boundary⟩

theorem readOff_ofLines (index : Nat) :
    (Block.ofLines script index ⟨opening, body, closing⟩).ReadOff script opening body closing := by
  obtain ⟨hkeep, hcloses⟩ : SourceLine.KeepOpen body ∧
      1 + Braces.depth (texts (body ++ [closing])) ≤ 0 := by
    cases h.wellFormed _ hs with
    | block _ keepOpen closes => exact ⟨keepOpen, closes⟩
  have hstands := h.standsIn hs
  have hclosing : closing.StandsIn script := hstands closing (by simp [Segment.lines])
  obtain ⟨before, after, hsplit, hafter⟩ :=
    Chars.exists_last_of_mem (SourceLine.mem_of_closes hkeep hcloses)
  have hleftover := SourceLine.leftover_of_split hsplit hafter
  obtain ⟨text, htext⟩ := (h.bounds_block hs).slice?
  rw [Block.ofLines_eq, hleftover, htext]
  refine ⟨rfl, rfl, rfl, htext, (h.filter_body hs).symm, ⟨before, after, hsplit, hafter, rfl⟩, ?_⟩
  intro l hl
  rcases List.mem_append.1 hl with hl | hl
  · have hmem : l ∈ body := hl
    exact (hstands l (by simp [Segment.lines, hmem])).slice?
  · split at hl
    · cases hl
    · obtain rfl := List.mem_singleton.1 hl
      exact (hclosing.cut hsplit).slice?

end Segmentation

namespace Outline

variable {script : String} {segments : List Segment}

theorem findings_of_segmentation
    (h : Segmentation (SourceLine.ofScript script) segments) :
    findings script = segments.flatMap (Segment.findings (Text.size script)) :=
  h.findings_run (Text.size script) none (Or.inl rfl)

theorem warning?_findings (size : Nat) (segments : List Segment) :
    (segments.flatMap (Segment.findings size)).filterMap warning? =
      segments.filterMap (Segment.warning? size) := by
  induction segments with
  | nil => rfl
  | cons s segments ih =>
    rw [List.flatMap_cons, List.filterMap_append, ih, List.filterMap_cons]
    cases s <;> rfl

theorem blocks_of_segmentation (h : Segmentation (SourceLine.ofScript script) segments) :
    (ofScript script).blocks = Segment.blocksFrom script 0 segments := by
  have hclosed : ∀ size, (segments.flatMap (Segment.findings size)).filterMap closed? =
      (segments.filterMap Segment.blockLines?).map fun t =>
        (((OpenBlock.ofLine t.opening).extend t.body).addLast t.closing, t.closing) := by
    intro size
    rw [List.filterMap_flatMap, List.map_filterMap, List.filterMap_eq_flatMap_toList]
    refine List.flatMap_congr fun s _ => ?_
    cases s <;> rfl
  rw [ofScript_eq, findings_of_segmentation h]
  dsimp only
  rw [Segment.blocksFrom, hclosed, List.zipIdx_map, List.map_map]
  rfl

/-- The blocks of some segments, numbered from any number on. -/
theorem forall₂_blocksFrom (script : String) (index : Nat) (segments : List Segment) :
    List.Forall₂ (fun s b => ∃ opening body closing index, s = Segment.block opening body closing ∧
        b = Block.ofLines script index ⟨opening, body, closing⟩)
      (segments.filter Segment.isBlock) (Segment.blocksFrom script index segments) := by
  induction segments generalizing index with
  | nil => exact .nil
  | cons s segments ih =>
    cases s with
    | gap | stray | tail => exact ih index
    | block opening body closing =>
      rw [Segment.blocksFrom_block]
      exact .cons ⟨opening, body, closing, index, rfl, rfl⟩ (ih (index + 1))

theorem readOff_of_segmentation (h : Segmentation (SourceLine.ofScript script) segments) :
    (ofScript script).ReadOff script segments := by
  have hfindings := findings_of_segmentation h
  have hmem : ∀ s ∈ segments.filter Segment.isBlock, s ∈ segments := fun s hs =>
    (List.mem_filter.1 hs).1
  have hblocks : List.Forall₂ (Segment.Becomes script) (segments.filter Segment.isBlock)
      (ofScript script).blocks := by
    rw [blocks_of_segmentation h]
    refine ((List.forall₂_and_left _ _).2 ⟨hmem, forall₂_blocksFrom script 0 segments⟩).imp ?_
    rintro s b ⟨hs, opening, body, closing, index, rfl, rfl⟩
    exact ⟨opening, body, closing, rfl, h.readOff_ofLines hs index⟩
  constructor
  · exact map_index_blocks script
  · exact hblocks
  · -- Of two blocks, the closing line of the first comes before the opening line of the second.
    apply pairwise_of_forall₂ hblocks (h.pairwise.filter Segment.isBlock)
    rintro s t a b ⟨opening, body, closing, rfl, ha⟩ ⟨opening', body', closing', rfl, hb⟩ hlines
    have hbefore := hlines closing (by simp [Segment.lines]) opening' (by simp [Segment.lines])
    rw [ha.span, hb.span]
    exact hbefore.span
  · rw [ofScript_eq, hfindings, warning?_findings]

/-- The lines of a script are the pieces between its line breaks without the carriage return at
their end, numbered from one. They fall into segments in one way only, and the outline says what the
segments do. -/
theorem existsUnique_segmentation (script : String) :
    SourceLine.texts (SourceLine.ofScript script) = SourceLine.linesOf script ∧
    (SourceLine.ofScript script).map (·.number) =
      List.range' 1 (SourceLine.ofScript script).length ∧
    ∃ segments, Segmentation (SourceLine.ofScript script) segments ∧
      (∀ others, Segmentation (SourceLine.ofScript script) others → others = segments) ∧
      (ofScript script).ReadOff script segments := by
  obtain ⟨segments, h⟩ := Segmentation.exists_segments (SourceLine.ofScript script)
  refine ⟨SourceLine.texts_ofScript script, SourceLine.map_number_ofScript script, segments, h, ?_,
    readOff_of_segmentation h⟩
  exact fun others hothers => hothers.unique h

end Outline

end Worksheet
