import Mathlib.Data.List.Infix
import Worksheet.Proofs.Block.Lines
import Worksheet.Proofs.Move.Outline

namespace Worksheet

namespace Braces

/-- Opened less closed braces of a line. Those of comments do not count. -/
def balance (line : String) : Int :=
  if Text.isComment (Text.trim line) then 0 else braceBalance false false line.toList

/-- Opened less closed braces of some lines. -/
def depth : List String → Int
  | [] => 0
  | line :: rest => balance line + depth rest

@[simp] theorem depth_nil : depth [] = 0 := rfl

@[simp] theorem depth_cons (line : String) (lines : List String) :
    depth (line :: lines) = balance line + depth lines := rfl

@[simp] theorem depth_append (xs ys : List String) : depth (xs ++ ys) = depth xs + depth ys := by
  induction xs with
  | nil => simp
  | cons x xs ih => rw [List.cons_append, depth_cons, depth_cons, ih, Int.add_assoc]

/-- The braces of some lines match: none is closed before it is opened, and all are closed. -/
structure Balanced (lines : List String) : Prop where
  inside : ∀ before, before <+: lines → 0 ≤ depth before
  closed : depth lines = 0

instance (lines : List String) : Decidable (Balanced lines) :=
  decidable_of_iff ((∀ before ∈ lines.inits, 0 ≤ depth before) ∧ depth lines = 0) <| by
    simp only [List.mem_inits]
    exact ⟨fun ⟨hinside, hclosed⟩ => ⟨hinside, hclosed⟩, fun h => ⟨h.inside, h.closed⟩⟩

end Braces

open SourceLine (texts texts_nil texts_cons texts_append)

namespace OpenBlock

/-- The block that opens on a line. -/
def ofLine (l : SourceLine) : OpenBlock :=
  ⟨l.number, l.span.start, 1, []⟩

/-- The block after some further lines that leave it open. -/
def extend (b : OpenBlock) (ls : List SourceLine) : OpenBlock :=
  ⟨b.startLine, b.start, b.depth + Braces.depth (texts ls), b.lines ++ ls⟩

theorem extend_nil (b : OpenBlock) : b.extend [] = b := by
  simp [extend]

theorem extend_extend (b : OpenBlock) (xs ys : List SourceLine) :
    (b.extend xs).extend ys = b.extend (xs ++ ys) := by
  simp [extend, Int.add_assoc]

end OpenBlock

namespace Place

variable {b : OpenBlock} {l : SourceLine}

theorem step_inside_of_pos (h : 0 < b.depth + Braces.balance l.text) :
    step (.inside b) l = (.inside (b.extend [l]), []) := by
  rw [Braces.balance] at h
  rw [step]
  dsimp only
  split
  · rename_i hcomment
    simp [OpenBlock.extend, OpenBlock.add, Braces.balance, hcomment]
  · rename_i hcomment
    rw [if_neg hcomment] at h
    rw [if_pos h]
    simp [OpenBlock.extend, OpenBlock.add, Braces.balance, hcomment]

theorem step_inside_of_not_pos (hb : 0 < b.depth) (h : ¬ 0 < b.depth + Braces.balance l.text) :
    step (.inside b) l = (.outside none, [.block (b.addLast l) l]) := by
  rw [Braces.balance] at h
  rw [step]
  dsimp only
  split
  · rename_i hcomment
    rw [if_pos hcomment, Int.add_zero] at h
    exact absurd hb h
  · rename_i hcomment
    rw [if_neg hcomment] at h
    rw [if_neg h]

/-- Lines either leave a block open, all of them, or one of them closes it. -/
theorem run_inside_cases (hb : 0 < b.depth) (ls : List SourceLine) :
    ((∀ before, before <+: ls → 0 < b.depth + Braces.depth (texts before)) ∧
      run (.inside b) ls = (.inside (b.extend ls), [])) ∨
    ∃ inner last after, ls = inner ++ last :: after ∧
      (∀ before, before <+: inner → 0 < b.depth + Braces.depth (texts before)) ∧
      b.depth + Braces.depth (texts (inner ++ [last])) ≤ 0 ∧
      run (.inside b) ls = ((run (.outside none) after).1,
        .block ((b.extend inner).addLast last) last :: (run (.outside none) after).2) := by
  induction ls generalizing b with
  | nil =>
    left
    refine ⟨?_, ?_⟩
    · intro before hbefore
      obtain rfl := List.prefix_nil.1 hbefore
      simpa using hb
    · rw [OpenBlock.extend_nil]
      rfl
  | cons l rest ih =>
    by_cases hl : 0 < b.depth + Braces.balance l.text
    · have hopen : 0 < (b.extend [l]).depth := by
        simpa [OpenBlock.extend] using hl
      have hdepth : ∀ ms, (b.extend [l]).depth + Braces.depth (texts ms) =
          b.depth + Braces.depth (texts (l :: ms)) := by
        intro ms
        simp [OpenBlock.extend, Int.add_assoc]
      have hrun : run (.inside b) (l :: rest) = run (.inside (b.extend [l])) rest := by
        rw [run_cons, step_inside_of_pos hl]
        rfl
      have hkept : ∀ {ms : List SourceLine},
          (∀ before, before <+: ms → 0 < (b.extend [l]).depth + Braces.depth (texts before)) →
          ∀ before, before <+: l :: ms → 0 < b.depth + Braces.depth (texts before) := by
        intro ms hms before hbefore
        rcases List.prefix_cons_iff.1 hbefore with rfl | ⟨more, rfl, hmore⟩
        · simpa using hb
        · rw [← hdepth]
          exact hms more hmore
      rcases ih hopen with ⟨hall, hlast⟩ | ⟨inner, last, after, rfl, hall, hclose, hlast⟩
      · left
        refine ⟨hkept hall, ?_⟩
        rw [hrun, hlast, OpenBlock.extend_extend]
        rfl
      · right
        refine ⟨l :: inner, last, after, rfl, hkept hall, ?_, ?_⟩
        · rw [List.cons_append, ← hdepth]
          exact hclose
        · rw [hrun, hlast, OpenBlock.extend_extend]
          rfl
    · right
      refine ⟨[], l, rest, rfl, ?_, ?_, ?_⟩
      · intro before hbefore
        obtain rfl := List.prefix_nil.1 hbefore
        simpa using hb
      · simpa using hl
      · rw [run_cons, step_inside_of_not_pos hb hl, OpenBlock.extend_nil]
        rfl

/-- Outside of all blocks, nothing but a line with an opening brace alone opens one. -/
theorem closed?_run_outside {ls : List SourceLine} (h : ∀ l ∈ ls, Text.trim l.text ≠ "\x7b")
    (stray : Option Span) : ∃ last, (run (.outside stray) ls).1 = .outside last ∧
      (run (.outside stray) ls).2.filterMap Outline.closed? = [] := by
  induction ls generalizing stray with
  | nil => exact ⟨stray, rfl, rfl⟩
  | cons l rest ih =>
    have hwarn : ∀ found : Option Span, (strayWarning found).filterMap Outline.closed? = [] := by
      intro found
      cases found <;> rfl
    have hstep : ∃ next, (step (.outside stray) l).1 = .outside next ∧
        (step (.outside stray) l).2.filterMap Outline.closed? = [] := by
      rw [step]
      dsimp only
      split
      · exact ⟨none, rfl, hwarn stray⟩
      · split
        · rename_i hbrace
          exact absurd (eq_of_beq hbrace) (h l (by simp))
        · exact ⟨_, rfl, rfl⟩
    obtain ⟨next, hnext, hfound⟩ := hstep
    obtain ⟨last, hlast, hmore⟩ := ih (fun k hk => h k (by simp [hk])) next
    refine ⟨last, ?_, ?_⟩
    · rw [run_cons, hnext, hlast]
    · rw [run_cons, hnext, List.filterMap_append, hfound, hmore]
      rfl

end Place

namespace Outline

variable {script : String} {first : SourceLine} {rest : List SourceLine}

theorem closed?_finish (place : Place) (size : Nat) :
    (place.finish size).filterMap closed? = [] := by
  cases place with
  | outside stray => cases stray <;> rfl
  | inside b => rfl

theorem blocks_ofScript (script : String) : (ofScript script).blocks =
    ((Place.run (.outside none) (SourceLine.ofScript script)).2.filterMap closed?).zipIdx.map
      fun ((b, last), index) => b.close script index last := by
  rw [ofScript_eq, findings]
  dsimp only
  rw [List.filterMap_append, closed?_finish, List.append_nil]

theorem run_of_opened (hfirst : Text.trim first.text = "\x7b") :
    Place.run (.outside none) (first :: rest) =
      Place.run (.inside (.ofLine first)) rest := by
  have hstep : Place.step (.outside none) first =
      (.inside (.ofLine first), []) := by
    rw [Place.step]
    dsimp only
    rw [hfirst]
    rfl
  rw [Place.run_cons, hstep]
  rfl

/-- A script that opens a block on its first line and nowhere else has that block, or none if it is
never closed. -/
theorem blocks_of_opened (hscript : SourceLine.ofScript script = first :: rest)
    (hfirst : Text.trim first.text = "\x7b") (hrest : ∀ l ∈ rest, Text.trim l.text ≠ "\x7b") :
    ((∀ before, before <+: rest → 0 < 1 + Braces.depth (texts before)) ∧
      (ofScript script).blocks = []) ∨
    ∃ inner last after block, rest = inner ++ last :: after ∧
      (∀ before, before <+: inner → 0 < 1 + Braces.depth (texts before)) ∧
      1 + Braces.depth (texts (inner ++ [last])) ≤ 0 ∧
      (ofScript script).blocks = [block] ∧
      (block.lines = inner ∨ Text.trim last.text ≠ "\x7d" ∧ ∃ part : SourceLine,
        block.lines = inner ++ [part] ∧ part.number = last.number ∧
          part.text.toList ++ ['\x7d'] <+: last.text.toList) := by
  rw [blocks_ofScript, hscript, run_of_opened hfirst]
  rcases Place.run_inside_cases (b := .ofLine first) Int.one_pos rest with
    ⟨hopen, hrun⟩ | ⟨inner, last, after, rfl, hopen, hclose, hrun⟩
  · left
    refine ⟨hopen, ?_⟩
    rw [hrun]
    rfl
  · right
    have hafter : ∀ l ∈ after, Text.trim l.text ≠ "\x7b" := fun l hl => hrest l (by simp [hl])
    obtain ⟨-, -, hnone⟩ := Place.closed?_run_outside hafter none
    let opened : OpenBlock := .extend (.ofLine first) inner
    have hclosed : (Place.run (.inside (.ofLine first)) (inner ++ last :: after)).2.filterMap
        closed? = [(opened.addLast last, last)] := by
      rw [hrun]
      exact congrArg (List.cons (opened.addLast last, last)) hnone
    refine ⟨inner, last, after, (opened.addLast last).close script 0 last, rfl, hopen, hclose,
      ?_, opened.lines_addLast last⟩
    rw [hclosed]
    rfl

/-- A script that is made for one block: a line with the opening brace, a first line in which braces
match, further lines, and a line with the closing brace. No other line holds an opening brace
alone. -/
structure Framed (script : String) (first head : SourceLine) (mid : List SourceLine)
    (close : SourceLine) : Prop where
  lines : SourceLine.ofScript script = first :: (head :: mid ++ [close])
  opening : Text.trim first.text = "\x7b"
  head_balance : Braces.balance head.text = 0
  closing : close.text = "\x7d"
  single : ∀ l ∈ head :: mid ++ [close], Text.trim l.text ≠ "\x7b"

namespace Framed

variable {head close : SourceLine} {mid : List SourceLine}
variable (h : Framed script first head mid close)

include h

theorem balance_close : Braces.balance close.text = -1 := by
  rw [h.closing]
  rfl

/-- The braces match within a block that only the last line closes. -/
theorem balanced_of_last
    (hopen : ∀ before, before <+: head :: mid → 0 < 1 + Braces.depth (texts before))
    (hclosed : 1 + Braces.depth (texts (head :: mid ++ [close])) ≤ 0) :
    Braces.Balanced (texts mid) := by
  have hinside : ∀ before, before <+: texts mid → 0 ≤ Braces.depth before := by
    intro before hbefore
    obtain ⟨ls, hls, rfl⟩ := List.prefix_map_iff.1 hbefore
    have hpos := hopen (head :: ls) (List.cons_prefix_cons.2 ⟨rfl, hls⟩)
    rw [texts_cons, Braces.depth_cons, h.head_balance] at hpos
    show 0 ≤ Braces.depth (texts ls)
    omega
  refine ⟨hinside, ?_⟩
  have hnonneg := hinside (texts mid) (List.prefix_refl _)
  simp [h.head_balance, h.balance_close] at hclosed
  omega

/-- The braces do not match if a line before the last one closes the block. -/
theorem not_balanced_of_earlier {inner after : List SourceLine} {last : SourceLine}
    (hmid : mid = inner ++ last :: after)
    (hclosed : 1 + Braces.depth (texts (head :: inner ++ [last])) ≤ 0) :
    ¬ Braces.Balanced (texts mid) := fun hb => by
  have hbefore : texts (inner ++ [last]) <+: texts mid := by
    refine ⟨texts after, ?_⟩
    simp [hmid]
  have hpos := hb.inside _ hbefore
  rw [List.cons_append, texts_cons, Braces.depth_cons, h.head_balance] at hclosed
  omega

/-- The braces do not match if nothing closes the block. -/
theorem not_balanced_of_open (hopen : ∀ before, before <+: head :: mid ++ [close] →
    0 < 1 + Braces.depth (texts before)) : ¬ Braces.Balanced (texts mid) := fun hb => by
  have hall := hopen _ (List.prefix_refl _)
  simp [h.head_balance, hb.closed, h.balance_close] at hall

/-- If the braces of the further lines match, the block is what it was made to be. Otherwise the
last brace closes nothing, and at most one block is left, which ends on one of the further lines. -/
theorem blocks_cases :
    (Braces.Balanced (texts mid) ∧ ∃ block, (ofScript script).blocks = [block] ∧
      block.lines = head :: mid) ∨
    ¬ Braces.Balanced (texts mid) ∧ ∀ block ∈ (ofScript script).blocks,
      ∃ inner last after, mid = inner ++ last :: after ∧
        (block.lines = head :: inner ∨ ∃ part : SourceLine, block.lines = head :: inner ++ [part] ∧
          part.text.toList ++ ['\x7d'] <+: last.text.toList) := by
  rcases blocks_of_opened h.lines h.opening h.single with
    ⟨hopen, hnone⟩ | ⟨inner, last, after, block, hsplit, hopen, hclosed, hblock, hlines⟩
  · exact Or.inr ⟨h.not_balanced_of_open hopen, by simp [hnone]⟩
  · obtain ⟨inner, rfl, hmid⟩ : ∃ rest, inner = head :: rest ∧
        mid ++ [close] = rest ++ last :: after := by
      cases inner with
      | nil =>
        obtain ⟨rfl, -⟩ := List.cons.inj hsplit
        simp [h.head_balance] at hclosed
      | cons front rest =>
        obtain ⟨rfl, hrest⟩ := List.cons.inj hsplit
        exact ⟨rest, rfl, hrest⟩
    -- The block is closed by the last line of the script or by an earlier one.
    rcases after.eq_nil_or_concat' with rfl | ⟨after, final, rfl⟩
    · left
      obtain ⟨rfl, hlast⟩ := List.append_inj' hmid rfl
      obtain rfl : close = last := List.singleton_inj.1 hlast
      refine ⟨h.balanced_of_last hopen hclosed, block, hblock, ?_⟩
      rcases hlines with hlines | ⟨hclose, -⟩
      · exact hlines
      · rw [h.closing] at hclose
        exact absurd (by rfl) hclose
    · right
      rw [← List.cons_append, ← List.append_assoc] at hmid
      obtain ⟨hmid, -⟩ := List.append_inj' hmid rfl
      refine ⟨h.not_balanced_of_earlier hmid hclosed, ?_⟩
      intro b hb
      rw [hblock] at hb
      obtain rfl := List.mem_singleton.1 hb
      refine ⟨inner, last, after, hmid, ?_⟩
      rcases hlines with hlines | ⟨-, part, hlines, -, hpart⟩
      · exact Or.inl hlines
      · exact Or.inr ⟨part, hlines, hpart⟩

end Framed

end Outline

/-- The lines that a place has taken in. -/
def Place.lines : Place → List SourceLine
  | .outside _ => []
  | .inside b => b.lines

/-- The lines of the block that is found. -/
def Finding.lines : Finding → List SourceLine
  | .warning _ => []
  | .block b _ => b.lines

section Lines

variable {P : SourceLine → Prop} (hcut : ∀ l part : SourceLine, part.number = l.number →
  part.text.toList <+: l.text.toList → P l → P part)

include hcut

namespace Place

theorem forall_step {place : Place} {l : SourceLine} (h : ∀ m ∈ place.lines, P m)
    (hl : P l) : (∀ m ∈ (place.step l).1.lines, P m) ∧
      ∀ f ∈ (place.step l).2, ∀ m ∈ f.lines, P m := by
  cases place with
  | outside stray =>
    have hwarn : ∀ f ∈ strayWarning stray, ∀ m ∈ f.lines, P m := by
      intro f hf
      cases stray with
      | none => cases hf
      | some s =>
        obtain rfl := List.mem_singleton.1 hf
        simp [Finding.lines]
    rw [step]
    dsimp only
    split
    · exact ⟨by simp [lines], hwarn⟩
    · split
      · exact ⟨by simp [lines], hwarn⟩
      · exact ⟨by simp [lines], by simp⟩
  | inside b =>
    have hadd : ∀ m ∈ (b.add l).lines, P m := OpenBlock.forall_add h hl
    rw [step]
    dsimp only
    split
    · exact ⟨hadd, by simp⟩
    · split
      · exact ⟨hadd, by simp⟩
      · refine ⟨by simp [lines], ?_⟩
        intro f hf
        obtain rfl := List.mem_singleton.1 hf
        exact OpenBlock.forall_addLast (hcut l) h hl

theorem forall_run {place : Place} {ls : List SourceLine} (h : ∀ m ∈ place.lines, P m)
    (hls : ∀ l ∈ ls, P l) : ∀ f ∈ (place.run ls).2, ∀ m ∈ f.lines, P m := by
  induction ls generalizing place with
  | nil => simp [run]
  | cons l rest ih =>
    obtain ⟨hnext, hfound⟩ := forall_step hcut h (hls l (by simp))
    have hmore := ih hnext fun k hk => hls k (by simp [hk])
    intro f hf
    rw [run_cons] at hf
    rcases List.mem_append.1 hf with hf | hf
    · exact hfound f hf
    · exact hmore f hf

end Place

/-- What holds of all lines of a script, and of the beginning of a line if it holds of the line,
holds of the lines of the blocks. -/
theorem Outline.forall_lines {script : String} (h : ∀ l ∈ SourceLine.ofScript script, P l)
    {b : Block} (hb : b ∈ (ofScript script).blocks) : ∀ l ∈ b.lines, P l := by
  rw [blocks_ofScript] at hb
  obtain ⟨⟨⟨opened, last⟩, index⟩, hp, rfl⟩ := List.mem_map.1 hb
  obtain ⟨f, hf, hc⟩ := List.mem_filterMap.1 (List.fst_mem_of_mem_zipIdx hp)
  have hlines := Place.forall_run hcut (by simp [Place.lines]) h f hf
  cases f with
  | warning w => cases hc
  | block found last =>
    cases hc
    exact hlines

end Lines

end Worksheet
