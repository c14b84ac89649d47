import Worksheet.Proofs.Move.Basic

namespace Worksheet

variable (r : Relocation)

def Contribution.relocate : Contribution → Contribution
  | .fields name text => .fields name text
  | .content line => .content (line.relocate r)

def Sections.relocate (s : Sections) : Sections :=
  ⟨s.metadata, s.config, s.content.map (SourceLine.relocate r)⟩

namespace Sections

theorem route_relocate (state : SectionState) (l : SourceLine) :
    route state (l.relocate r) =
      ((route state l).1, (route state l).2.map (Contribution.relocate r)) := by
  rw [route, route, SourceLine.relocate_text]
  split
  · split <;> rfl
  · split
    · rfl
    · split
      · split <;> rfl
      · split
        · split <;> rfl
        · rfl

theorem contributions_relocate (state : SectionState) (ls : List SourceLine) :
    contributions state (ls.map (SourceLine.relocate r)) =
      (contributions state ls).map (Contribution.relocate r) := by
  induction ls generalizing state with
  | nil => rfl
  | cons l rest ih =>
    rw [List.map_cons, contributions, contributions, route_relocate]
    dsimp only
    rw [ih, List.map_append]

theorem fieldText_relocate (name : SectionName) (found : List Contribution) :
    fieldText name (found.map (Contribution.relocate r)) = fieldText name found := by
  rw [fieldText, fieldText, List.filterMap_map]
  congr 4
  funext c
  cases c <;> rfl

theorem ofLines_relocate (ls : List SourceLine) :
    ofLines (ls.map (SourceLine.relocate r)) = (ofLines ls).relocate r := by
  rw [ofLines, ofLines, contributions_relocate]
  dsimp only [Sections.relocate]
  rw [fieldText_relocate, fieldText_relocate, List.filterMap_map, List.map_filterMap]
  congr 2
  funext c
  cases c <;> rfl

theorem ofBlock_relocate (b : Block) : ofBlock (b.relocate r) = (ofBlock b).relocate r :=
  ofLines_relocate r b.lines

theorem number_pos_of_content {b : Block} (h : ∀ l ∈ b.lines, 0 < l.number) :
    ∀ l ∈ (ofBlock b).content, 0 < l.number := by
  obtain ⟨earlier, he⟩ := SourceLine.exists_relocate_of_pos h
  rw [ofBlock, he, ofLines_relocate]
  intro l hl
  obtain ⟨k, -, rfl⟩ := List.mem_map.1 hl
  exact Nat.succ_pos k.number

end Sections

namespace Context

variable {σ : Type} (ctx : Context σ)

/-- A remark is no content line, so that it has no place. -/
theorem remark?_relocate {trimmed : String} {effect : String → LineEffect} {inner : String}
    (h : remark? trimmed = .ok (some (effect, inner))) (text : String) :
    (effect text).relocate r = effect text := by
  rw [remark?] at h
  dsimp only at h
  split at h
  · cases h
  · rename_i own hown
    have heffect : effect = own := by
      cases hc : Call.findBare ["HINT", "EXPLANATION"] trimmed with
      | error e =>
        rw [hc] at h
        cases h
      | ok calls =>
        rw [hc] at h
        cases calls with
        | nil => cases h
        | cons call rest =>
          simp only [Except.map] at h
          split at h
          · cases h
            rfl
          · cases h
    subst heffect
    split at hown
    · cases hown
      rfl
    · split at hown
      · cases hown
        rfl
      · cases hown

theorem readContent_relocate (number : Nat) (trimmed : String) :
    ctx.readContent (r.line number) trimmed =
      LineEffect.relocate r <$> ctx.readContent number trimmed := by
  rw [readContent, readContent, map_bind]
  refine bind_congr fun text => ?_
  rw [map_bind]
  refine bind_congr fun found => ?_
  obtain ⟨rest, markers⟩ := found
  dsimp only
  split <;> rw [map_pure] <;> rfl

theorem readLine_relocate (l : SourceLine) :
    ctx.readLine (l.relocate r) = LineEffect.relocate r <$> ctx.readLine l := by
  rw [readLine, readLine, SourceLine.relocate_text]
  split
  · rw [map_pure]
    rfl
  · split
    · rw [map_bind]
      refine bind_congr fun _ => ?_
      rw [map_bind]
      refine bind_congr fun _ => ?_
      rw [map_pure]
      rfl
    · cases hr : remark? (Text.trim l.text) with
      | error e => rfl
      | ok found =>
        rw [Eval.ofCall, pure_bind, pure_bind]
        cases found with
        | none => exact readContent_relocate r ctx l.number _
        | some found =>
          obtain ⟨effect, inner⟩ := found
          dsimp only
          rw [map_bind]
          refine bind_congr fun text => ?_
          rw [map_pure, remark?_relocate r hr]

theorem run_readLine_relocate (l : SourceLine) (w : World σ) :
    (ctx.readLine (l.relocate r)).run.run w =
      (((ctx.readLine l).run.run w).1.map (LineEffect.relocate r),
        ((ctx.readLine l).run.run w).2) := by
  rw [readLine_relocate, ExceptT.run_map, StateT.run_map]
  rfl

theorem readLines_relocate (found : Material) (ls : List SourceLine) (w : World σ) :
    ctx.readLines (found.relocate r) (ls.map (SourceLine.relocate r)) w =
      (((ctx.readLines found ls w).1.map (Material.relocate r)).mapError (LineError.relocate r),
        (ctx.readLines found ls w).2) := by
  induction ls generalizing found w with
  | nil => rfl
  | cons l rest ih =>
    rw [List.map_cons, readLines, readLines, run_readLine_relocate]
    cases (ctx.readLine l).run.run w with
    | mk result next =>
      cases result with
      | error e => rfl
      | ok effect =>
        have hadd : (found.relocate r).add (effect.relocate r) = (found.add effect).relocate r := by
          cases effect with
          | content line => simp [Material.add, Material.relocate, LineEffect.relocate]
          | _ => rfl
        dsimp only [Except.map]
        rw [hadd, ih]
        rfl

theorem material_relocate (ls : List SourceLine) (random : σ) :
    ctx.material (ls.map (SourceLine.relocate r)) random =
      (((ctx.material ls random).1.map (Material.relocate r)).mapError (LineError.relocate r),
        (ctx.material ls random).2) := by
  have h := readLines_relocate r ctx {} ls ⟨{}, random⟩
  rw [show ({} : Material).relocate r = {} from rfl] at h
  rw [material, material, h]

/-- Content lines from lines with positive numbers have positive numbers. -/
theorem line_pos_of_material {ls : List SourceLine} (hls : ∀ l ∈ ls, 0 < l.number) {random : σ}
    {m : Material} (h : (ctx.material ls random).1 = .ok m) : ∀ l ∈ m.lines, 0 < l.line := by
  obtain ⟨earlier, rfl⟩ := SourceLine.exists_relocate_of_pos hls
  rw [material_relocate] at h
  cases hr : (ctx.material earlier random).1 with
  | error e =>
    rw [hr] at h
    cases h
  | ok own =>
    rw [hr] at h
    cases h
    intro l hl
    obtain ⟨k, -, rfl⟩ := List.mem_map.1 hl
    exact Nat.succ_pos k.line

end Context

end Worksheet
