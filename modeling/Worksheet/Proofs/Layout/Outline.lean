import Worksheet.Proofs.Block.Places
import Worksheet.Proofs.Layout.Lines

namespace Worksheet

/-- Two offsets with the same number of line breaks before them. -/
def SameRow (a b : String) (m n : Nat) : Prop :=
  Chars.countBefore '\n' m a.toList = Chars.countBefore '\n' n b.toList

variable {a b : String}

/-- Lines of one number begin on the same line of their scripts. -/
theorem SourceLine.sameRow_start {k l : SourceLine} (hk : k.LiesIn a) (hl : l.LiesIn b)
    (h : k.number = l.number) : SameRow a b k.span.start l.span.start := by
  have hrows := hk.number.trans (h.trans hl.number.symm)
  exact Nat.succ.inj hrows

namespace OpenBlock

/-- Open blocks that differ by white space around their lines. -/
structure Alike (a b : String) (x y : OpenBlock) : Prop where
  startLine : x.startLine = y.startLine
  start : SameRow a b x.start y.start
  depth : x.depth = y.depth
  lines : List.Forall₂ SourceLine.Alike x.lines y.lines

variable {x y : OpenBlock} {k l : SourceLine}

theorem Alike.add (h : Alike a b x y) (hl : k.Alike l) : Alike a b (x.add k) (y.add l) :=
  ⟨h.startLine, h.start, h.depth, List.rel_append h.lines (.cons hl .nil)⟩

theorem Alike.withDepth (h : Alike a b x y) (depth : Int) :
    Alike a b { x with depth } { y with depth } :=
  ⟨h.startLine, h.start, rfl, h.lines⟩

theorem Alike.addLast (h : Alike a b x y) (hl : k.Alike l) :
    Alike a b (x.addLast k) (y.addLast l) := by
  have hlast := hl.map_trim_splitLast
  rw [OpenBlock.addLast, OpenBlock.addLast, hl.text]
  split
  · exact h
  · cases hk : Chars.splitLast '\x7d' k.text.toList with
    | none =>
      rw [hk, Option.map_none] at hlast
      rw [Option.map_eq_none_iff.1 hlast.symm]
      exact h
    | some cut =>
      rw [hk, Option.map_some] at hlast
      obtain ⟨cut', hl', htrim⟩ := Option.map_eq_some_iff.1 hlast.symm
      have hblank : cut.1.all Chars.isBlank = cut'.1.all Chars.isBlank := by
        rw [Bool.eq_iff_iff, ← Chars.trim_eq_nil_iff, ← Chars.trim_eq_nil_iff, htrim]
      rw [hl']
      obtain ⟨before, after⟩ := cut
      obtain ⟨before', after'⟩ := cut'
      dsimp only at hblank htrim ⊢
      rw [hblank]
      split
      · exact h
      · refine h.add ⟨hl.number, ?_⟩
        simp [Text.trim, htrim]

end OpenBlock

/-- Places that differ by white space around the lines read so far. -/
inductive Place.Alike (a b : String) : Place → Place → Prop where
  | outside : Alike a b (.outside none) (.outside none)
  | stray {s t : Span} (start : SameRow a b s.start t.start) :
    Alike a b (.outside (some s)) (.outside (some t))
  | inside {x y : OpenBlock} (block : x.Alike a b y) : Alike a b (.inside x) (.inside y)

/-- Warnings that say the same of the same line. -/
structure StructureWarning.Alike (a b : String) (v w : StructureWarning) : Prop where
  fault : v.fault = w.fault
  start : SameRow a b v.span.start w.span.start

inductive Finding.Alike (a b : String) : Finding → Finding → Prop where
  | warning {v w : StructureWarning} (h : v.Alike a b w) : Alike a b (.warning v) (.warning w)
  | block {x y : OpenBlock} {k l : SourceLine} (block : x.Alike a b y)
    (last : k.number = l.number) : Alike a b (.block x k) (.block y l)

namespace Place

variable {p q : Place} {k l : SourceLine}

theorem Alike.strayWarning {s t : Option Span} (h : Alike a b (.outside s) (.outside t)) :
    List.Forall₂ (Finding.Alike a b) (strayWarning s) (strayWarning t) := by
  cases h with
  | outside => exact .nil
  | stray start => exact .cons (.warning ⟨rfl, start⟩) .nil

theorem Alike.finish (h : Alike a b p q) (m n : Nat) :
    List.Forall₂ (Finding.Alike a b) (p.finish m) (q.finish n) := by
  cases h with
  | outside => exact .nil
  | stray start => exact (Alike.stray start).strayWarning
  | inside block =>
    have hfault : StructureFault.unclosed _ = StructureFault.unclosed _ :=
      congrArg StructureFault.unclosed block.startLine
    exact .cons (.warning ⟨hfault, block.start⟩) .nil

/-- Lines that differ by white space are read in step. -/
theorem Alike.step (h : Alike a b p q) (hl : k.Alike l)
    (hrow : SameRow a b k.span.start l.span.start) : (p.step k).1.Alike a b (q.step l).1 ∧
      List.Forall₂ (Finding.Alike a b) (p.step k).2 (q.step l).2 := by
  cases p with
  | outside s =>
    cases q with
    | inside y => cases h
    | outside t =>
      have hwarning := h.strayWarning
      rw [Place.step, Place.step]
      dsimp only
      rw [hl.text]
      split
      · exact ⟨.outside, hwarning⟩
      · split
        · have hopened : OpenBlock.Alike a b ⟨k.number, k.span.start, 1, []⟩
              ⟨l.number, l.span.start, 1, []⟩ := ⟨hl.number, hrow, rfl, .nil⟩
          exact ⟨.inside hopened, hwarning⟩
        · refine ⟨?_, .nil⟩
          cases h with
          | outside => exact .stray hrow
          | stray start => exact .stray start
  | inside x =>
    cases h with
    | inside block =>
      rw [Place.step, Place.step]
      dsimp only
      rw [hl.text, hl.braceBalance_eq, block.depth]
      split
      · exact ⟨.inside (block.add hl), .nil⟩
      · split
        · exact ⟨.inside ((block.add hl).withDepth _), .nil⟩
        · exact ⟨.outside, .cons (.block (block.addLast hl) hl.number) .nil⟩

theorem Alike.run {ks ls : List SourceLine} (hls : List.Forall₂ SourceLine.Alike ks ls)
    (hks : ∀ k ∈ ks, k.LiesIn a) (hls' : ∀ l ∈ ls, l.LiesIn b) (h : Alike a b p q) :
    (p.run ks).1.Alike a b (q.run ls).1 ∧
      List.Forall₂ (Finding.Alike a b) (p.run ks).2 (q.run ls).2 := by
  induction hls generalizing p q with
  | nil => exact ⟨h, .nil⟩
  | @cons k l ks ls hl _ ih =>
    have hrow := SourceLine.sameRow_start (hks k (by simp)) (hls' l (by simp)) hl.number
    obtain ⟨hnext, hfound⟩ := h.step hl hrow
    obtain ⟨hlast, hmore⟩ := ih (fun m hm => hks m (by simp [hm]))
      (fun m hm => hls' m (by simp [hm]))
      hnext
    rw [run_cons, run_cons]
    exact ⟨hlast, List.rel_append hfound hmore⟩

end Place

/-- Blocks of the same number on the same lines, with lines that differ by white space at their
ends. -/
structure Block.Alike (x y : Block) : Prop where
  index : x.index = y.index
  startLine : x.startLine = y.startLine
  endLine : x.endLine = y.endLine
  lines : List.Forall₂ SourceLine.Alike x.lines y.lines

namespace Outline

theorem findings_alike (h : SameLayout a b) :
    List.Forall₂ (Finding.Alike a b) (findings a) (findings b) := by
  obtain ⟨hlast, hfound⟩ := Place.Alike.run (SourceLine.alike_ofScript h)
    (fun _ => SourceLine.liesIn_of_mem) (fun _ => SourceLine.liesIn_of_mem) Place.Alike.outside
  exact List.rel_append hfound (hlast.finish (Text.size a) (Text.size b))

theorem warning?_alike {xs ys : List Finding} (h : List.Forall₂ (Finding.Alike a b) xs ys) :
    List.Forall₂ (StructureWarning.Alike a b) (xs.filterMap warning?) (ys.filterMap warning?) := by
  induction h with
  | nil => exact .nil
  | cons hf _ ih =>
    cases hf with
    | warning hw => exact .cons hw ih
    | block => exact ih

theorem warnings_alike (h : SameLayout a b) :
    List.Forall₂ (StructureWarning.Alike a b) (ofScript a).warnings (ofScript b).warnings := by
  rw [ofScript_eq, ofScript_eq]
  exact warning?_alike (findings_alike h)

/-- Blocks that are found in step and numbered from the same number on. -/
theorem close_alike {xs ys : List Finding} (h : List.Forall₂ (Finding.Alike a b) xs ys)
    (index : Nat) : List.Forall₂ Block.Alike
      (((xs.filterMap closed?).zipIdx index).map fun ((x, last), index) => x.close a index last)
      (((ys.filterMap closed?).zipIdx index).map fun ((y, last), index) =>
        y.close b index last) := by
  induction h generalizing index with
  | nil => exact .nil
  | cons hf _ ih =>
    cases hf with
    | warning => exact ih index
    | block hblock hlast =>
      exact .cons ⟨rfl, hblock.startLine, hlast, hblock.lines⟩ (ih (index + 1))

theorem blocks_alike (h : SameLayout a b) :
    List.Forall₂ Block.Alike (ofScript a).blocks (ofScript b).blocks := by
  rw [ofScript_eq, ofScript_eq]
  exact close_alike (findings_alike h) 0

end Outline

end Worksheet
