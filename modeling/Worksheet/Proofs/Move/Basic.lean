import Mathlib.Order.Monotone.Basic
import Worksheet.Engine

namespace Worksheet

/-- What stands before a script. -/
structure Origin where
  blocks : Nat
  lines : Nat
  bytes : Nat

namespace Origin

/-- What stands before a script that comes after a given one and a line break. -/
def after (script : String) : Origin :=
  ⟨(Outline.ofScript script).blocks.length, (SourceLine.ofScript script).length,
    Text.size script + 1⟩

end Origin

/-- Where blocks, lines and bytes of a script come to stand in another one. The lines stay in their
order. -/
structure Relocation where
  block : Nat → Nat
  line : Nat → Nat
  byte : Nat → Nat
  line_strictMono : StrictMono line

namespace Relocation

/-- Everything stays where it is. -/
def none : Relocation :=
  ⟨id, id, id, strictMono_id⟩

/-- Every line is the next one. -/
def nextLine : Relocation :=
  ⟨id, (· + 1), id, fun _ _ h => Nat.succ_lt_succ h⟩

/-- Everything grows by what stands before. -/
def ofOrigin (o : Origin) : Relocation :=
  ⟨(· + o.blocks), (· + o.lines), (· + o.bytes), fun _ _ h => Nat.add_lt_add_right h o.lines⟩

theorem line_pos (r : Relocation) {number : Nat} (h : 0 < number) : 0 < r.line number :=
  Nat.lt_of_le_of_lt (Nat.zero_le _) (r.line_strictMono h)

end Relocation

section Relocate

variable (r : Relocation)

def Span.relocate (s : Span) : Span :=
  ⟨r.byte s.start, r.byte s.stop⟩

def SourceLine.relocate (l : SourceLine) : SourceLine :=
  ⟨r.line l.number, l.text, l.span.relocate r⟩

def Block.relocate (b : Block) : Block where
  index := r.block b.index
  startLine := r.line b.startLine
  endLine := r.line b.endLine
  span := b.span.relocate r
  text := b.text
  lines := b.lines.map (SourceLine.relocate r)

def StructureFault.relocate : StructureFault → StructureFault
  | .stray => .stray
  | .unclosed line => .unclosed (r.line line)

def StructureWarning.relocate (w : StructureWarning) : StructureWarning :=
  ⟨w.fault.relocate r, w.span.relocate r⟩

def ContentLine.relocate (l : ContentLine) : ContentLine :=
  { l with line := r.line l.line }

def ContentError.relocate : ContentError → ContentError
  | .line number fault => .line (r.line number) fault
  | error => error

def LineError.relocate (e : LineError) : LineError :=
  ⟨r.line e.line, e.span.relocate r, e.error⟩

def LineEffect.relocate : LineEffect → LineEffect
  | .content line => .content (line.relocate r)
  | effect => effect

def Material.relocate (m : Material) : Material :=
  { m with lines := m.lines.map (ContentLine.relocate r) }

namespace Diagnostic

/-- Whether the diagnostic is about a block that is never closed, and names the line on which it
begins. -/
def isUnclosed (d : Diagnostic) : Bool :=
  d.block.isNone && d.line.any fun line => d.message == (StructureFault.unclosed line).message

/-- The block, the line and the stretch are relocated, and so is the line that the message names. -/
def relocate (d : Diagnostic) : Diagnostic where
  severity := d.severity
  message :=
    if d.isUnclosed then (StructureFault.unclosed (r.line (d.line.getD 0))).message else d.message
  block := d.block.map r.block
  line := d.line.map r.line
  span := d.span.map (Span.relocate r)

end Diagnostic

@[simp] theorem SourceLine.relocate_text (l : SourceLine) : (l.relocate r).text = l.text := rfl

@[simp] theorem ContentLine.relocate_text (l : ContentLine) : (l.relocate r).text = l.text := rfl

end Relocate

variable (o : Origin)

def SourceLine.move (l : SourceLine) : SourceLine :=
  l.relocate (.ofOrigin o)

def Block.move (b : Block) : Block :=
  b.relocate (.ofOrigin o)

def StructureWarning.move (w : StructureWarning) : StructureWarning :=
  w.relocate (.ofOrigin o)

def OpenBlock.move (b : OpenBlock) : OpenBlock :=
  ⟨b.startLine + o.lines, b.start + o.bytes, b.depth, b.lines.map (SourceLine.move o)⟩

def Place.move : Place → Place
  | .outside stray => .outside (stray.map (·.shift o.bytes))
  | .inside block => .inside (block.move o)

def Finding.move : Finding → Finding
  | .warning w => .warning (w.move o)
  | .block b last => .block (b.move o) (last.move o)

/-- The block, the line and the stretch grow, and so does the line that the message names. -/
def Diagnostic.move (d : Diagnostic) : Diagnostic :=
  d.relocate (.ofOrigin o)

@[simp] theorem SourceLine.move_text (l : SourceLine) : (l.move o).text = l.text := rfl

/-- Lines with positive numbers come from lines with numbers that are smaller by one. -/
theorem SourceLine.exists_relocate_of_pos {ls : List SourceLine} (h : ∀ l ∈ ls, 0 < l.number) :
    ∃ earlier : List SourceLine, ls = earlier.map (SourceLine.relocate .nextLine) := by
  refine ⟨ls.map fun l => { l with number := l.number - 1 }, ?_⟩
  rw [List.map_map]
  refine (List.map_id ls).symm.trans (List.map_congr_left fun l hl => ?_)
  show l = ⟨l.number - 1 + 1, l.text, l.span⟩
  rw [Nat.sub_add_cancel (h l hl)]

theorem ContentLine.exists_relocate_of_pos {ls : List ContentLine} (h : ∀ l ∈ ls, 0 < l.line) :
    ∃ earlier : List ContentLine, ls = earlier.map (ContentLine.relocate .nextLine) := by
  refine ⟨ls.map fun l => { l with line := l.line - 1 }, ?_⟩
  rw [List.map_map]
  refine (List.map_id ls).symm.trans (List.map_congr_left fun l hl => ?_)
  show l = ⟨l.text, l.markers, l.line - 1 + 1⟩
  rw [Nat.sub_add_cancel (h l hl)]

end Worksheet
