import Worksheet.Eval.Material
import Worksheet.Proofs.Call.Plain
import Worksheet.Proofs.Eval.Run

namespace Worksheet

/-- The content line that an effect adds. -/
def LineEffect.content? : LineEffect → Option ContentLine
  | .content line => some line
  | _ => none

theorem Material.lines_add (m : Material) (effect : LineEffect) :
    (m.add effect).lines = m.lines ++ effect.content?.toList := by
  cases effect <;> simp [add, LineEffect.content?]

/-- Whether a line is no comment, no definition and no remark. -/
def isContent (text : String) : Bool :=
  let trimmed := Text.trim text
  !(trimmed.isEmpty || Text.isComment trimmed) && (Definition.parse? trimmed).isNone &&
    match remark? trimmed with
    | .ok none => true
    | _ => false

theorem of_isContent {text : String} (h : isContent text = true) :
    (Text.trim text).isEmpty = false ∧ Text.isComment (Text.trim text) = false ∧
      Definition.parse? (Text.trim text) = none ∧ remark? (Text.trim text) = .ok none := by
  simp only [isContent, Bool.and_eq_true, Bool.not_eq_true', Bool.or_eq_false_iff,
    Option.isNone_iff_eq_none] at h
  obtain ⟨⟨⟨hempty, hcomment⟩, hdefinition⟩, hremark⟩ := h
  refine ⟨hempty, hcomment, hdefinition, ?_⟩
  split at hremark
  · assumption
  · cases hremark

/-- The line as content, without markers. -/
def SourceLine.asContent (l : SourceLine) : ContentLine :=
  ⟨Text.trim l.text, [], l.number⟩

/-- The content of lines in which no call begins. -/
def SourceLine.contents (ls : List SourceLine) : List ContentLine :=
  (ls.filter (isContent ·.text)).map SourceLine.asContent

theorem SourceLine.withText_contents (ls : List SourceLine) :
    ContentLine.withText (contents ls) = contents ls := by
  rw [ContentLine.withText, List.filter_eq_self]
  intro c hc
  obtain ⟨l, hl, rfl⟩ := List.mem_map.1 hc
  obtain ⟨hempty, -⟩ := of_isContent (List.mem_filter.1 hl).2
  simpa [asContent] using hempty

/-- Remarks are no content. -/
theorem content?_of_remark? {trimmed : String} {effect : String → LineEffect} {inner : String}
    (h : remark? trimmed = .ok (some (effect, inner))) (text : String) :
    (effect text).content? = none := by
  have hown : ∀ own : String → LineEffect, own = .hint ∨ own = .explanation →
      (own text).content? = none := by
    rintro own (rfl | rfl) <;> rfl
  rw [remark?] at h
  dsimp only at h
  split at h
  · cases h
  · rename_i own hchosen
    have hkind : own = .hint ∨ own = .explanation := by
      split at hchosen
      · exact Or.inl (Option.some.inj hchosen).symm
      · split at hchosen
        · exact Or.inr (Option.some.inj hchosen).symm
        · cases hchosen
    obtain ⟨calls, -, hcalls⟩ := map_eq_ok_iff.1 h
    have heffect : effect = own := by
      cases calls with
      | nil => cases hcalls
      | cons call rest =>
        dsimp only at hcalls
        split at hcalls
        · exact (Prod.mk.inj (Option.some.inj hcalls)).1.symm
        · cases hcalls
    rw [heffect]
    exact hown own hkind

namespace Context

variable {σ : Type} (ctx : Context σ)

theorem resolve_of_not_occursIn {text : String} (h : Call.occursIn text = false) :
    ctx.resolve text = pure text := by
  rw [resolve, Call.segment_of_not_occursIn h]
  simp [Eval.ofCall, Segmented.render]

theorem readContent_of_not_occursIn {trimmed : String} (h : Call.occursIn trimmed = false)
    (ht : Text.trim trimmed = trimmed) (hne : trimmed ≠ "") (number : Nat) :
    ctx.readContent number trimmed = pure (.content ⟨trimmed, [], number⟩) := by
  rw [readContent, resolve_of_not_occursIn ctx h, pure_bind, Marker.extract_of_not_occursIn h]
  simp [Eval.ofCall, ht, hne]

variable {l : SourceLine}

theorem readLine_eq_readContent (h : isContent l.text = true) :
    ctx.readLine l = ctx.readContent l.number (Text.trim l.text) := by
  obtain ⟨hempty, hcomment, hdefinition, hremark⟩ := of_isContent h
  rw [readLine]
  simp only [hempty, hcomment, Bool.or_self, Bool.false_eq_true, if_false, hdefinition, hremark,
    Eval.ofCall, pure_bind]

/-- Comments, definitions and remarks add no content. -/
theorem content?_of_not_isContent {w w' : World σ} {effect : LineEffect}
    (hnot : isContent l.text = false) (h : (ctx.readLine l).run.run w = (.ok effect, w')) :
    effect.content? = none := by
  rw [readLine] at h
  split at h
  · obtain ⟨rfl, -⟩ := Eval.run_pure_eq_ok.1 h
    rfl
  · rename_i hcontent
    split at h
    · obtain ⟨_, _, -, h⟩ := Eval.run_bind_eq_ok.1 h
      obtain ⟨_, _, -, h⟩ := Eval.run_bind_eq_ok.1 h
      obtain ⟨rfl, -⟩ := Eval.run_pure_eq_ok.1 h
      rfl
    · rename_i hdefinition
      obtain ⟨remark, between, hremark, h⟩ := Eval.run_bind_eq_ok.1 h
      cases hr : remark? (Text.trim l.text) with
      | error e =>
        rw [hr] at hremark
        cases hremark
      | ok found =>
        rw [hr] at hremark
        obtain ⟨rfl, -⟩ := Eval.run_pure_eq_ok.1 hremark
        cases found with
        | none => simp [isContent, hcontent, hdefinition, hr] at hnot
        | some found =>
          obtain ⟨own, inner⟩ := found
          obtain ⟨text, _, -, h⟩ := Eval.run_bind_eq_ok.1 h
          obtain ⟨rfl, -⟩ := Eval.run_pure_eq_ok.1 h
          exact content?_of_remark? hr text

section NoCall

variable (hl : Call.occursIn l.text = false)

include hl

/-- A line that is content adds itself and changes nothing else. -/
theorem readLine_of_isContent (h : isContent l.text = true) :
    ctx.readLine l = pure (.content l.asContent) := by
  obtain ⟨hempty, -⟩ := of_isContent h
  have hne : Text.trim l.text ≠ "" := by simpa using hempty
  have htrim : Text.trim (Text.trim l.text) = Text.trim l.text := by
    simp [Text.trim]
  rw [readLine_eq_readContent ctx h]
  exact readContent_of_not_occursIn ctx ((Call.occursIn_trim _).trans hl) htrim hne l.number

/-- What a line adds that is read. -/
theorem content?_of_readLine {w w' : World σ} {effect : LineEffect}
    (h : (ctx.readLine l).run.run w = (.ok effect, w')) :
    effect.content? = if isContent l.text then some l.asContent else none := by
  split
  · rename_i hcontent
    rw [readLine_of_isContent ctx hl hcontent] at h
    obtain ⟨rfl, -⟩ := Eval.run_pure_eq_ok.1 h
    rfl
  · rename_i hnot
    exact content?_of_not_isContent ctx (Bool.eq_false_iff.2 hnot) h

end NoCall

/-- Lines that are all content are read as what they are. -/
theorem readLines_of_isContent {lines : List SourceLine} {found : Material}
    (hcalls : ∀ l ∈ lines, Call.occursIn l.text = false)
    (h : ∀ l ∈ lines, isContent l.text = true) (w : World σ) : ctx.readLines found lines w =
      (.ok { found with lines := found.lines ++ lines.map SourceLine.asContent }, w) := by
  induction lines generalizing found with
  | nil => simp [readLines]
  | cons l rest ih =>
    have hline : (ctx.readLine l).run.run w = (.ok (.content l.asContent), w) := by
      rw [readLine_of_isContent ctx (hcalls l (by simp)) (h l (by simp))]
      rfl
    rw [readLines, hline]
    dsimp only
    rw [ih (fun m hm => hcalls m (by simp [hm])) (fun m hm => h m (by simp [hm]))]
    simp [Material.add]

/-- The content that is found in lines that are read. -/
theorem lines_of_readLines {lines : List SourceLine} {found m : Material} {w w' : World σ}
    (hcalls : ∀ l ∈ lines, Call.occursIn l.text = false)
    (h : ctx.readLines found lines w = (.ok m, w')) :
    m.lines = found.lines ++ SourceLine.contents lines := by
  induction lines generalizing found w with
  | nil =>
    obtain ⟨hm, -⟩ := Prod.mk.inj h
    obtain rfl := Except.ok.inj hm
    simp [SourceLine.contents]
  | cons l rest ih =>
    rw [readLines] at h
    cases hl : (ctx.readLine l).run.run w with
    | mk result between =>
      rw [hl] at h
      cases result with
      | error e => cases (Prod.mk.inj h).1
      | ok effect =>
        have hown := content?_of_readLine ctx (hcalls l (by simp)) hl
        have hrest := ih (fun k hk => hcalls k (by simp [hk])) h
        rw [hrest, Material.lines_add, hown, SourceLine.contents, SourceLine.contents,
          List.filter_cons]
        split <;> simp

end Context

end Worksheet
