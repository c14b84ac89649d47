import Worksheet.Proofs.FillBlank.Placed
import Worksheet.Proofs.Kind.Dispatch

namespace Worksheet

namespace MultipleChoice

theorem exists_renderQuestion {q : ChoiceQuestion} (h : ∀ i ∈ q.correct, i < q.options.length) :
    ∃ line, renderQuestion q = .ok line := by
  have hlabels : ∃ labels, q.correct.mapM (optionAt q.options) = .ok labels := by
    rw [exists_mapM_eq_ok_iff]
    intro i hi
    have hlt : i < q.options.length := h i hi
    exact ⟨q.options[i], by rw [optionAt, List.getElem?_eq_getElem hlt]⟩
  obtain ⟨labels, hlabels⟩ := hlabels
  exact ⟨_, by rw [renderQuestion, hlabels]; rfl⟩

theorem exists_serialize {questions : List ChoiceQuestion}
    (h : (validate questions).isValid = true) : ∃ lines, serialize questions = .ok lines := by
  rw [serialize, exists_mapM_eq_ok_iff]
  intro q hq
  exact exists_renderQuestion ((isValid_validate_iff.1 h).each q hq).inside

end MultipleChoice

theorem FillBlank.exists_serialize_iff_placed {sentences : List FillSentence} :
    (∃ lines, serialize sentences = .ok lines) ↔ ∀ s ∈ sentences, s.Placed := by
  rw [serialize, exists_mapM_eq_ok_iff]
  exact forall₂_congr fun s _ => exists_renderSentence_iff

/-- An image that passes is there to be written. -/
theorem Selector.Image.exists_serialize {s : Selection} (h : (validate s).isValid = true) :
    ∃ lines, serialize s = .ok lines := by
  rw [validate] at h
  rw [serialize]
  split at h
  · cases h
  · exact ⟨_, rfl⟩

namespace Kind

variable {α : Type} {tag : String} {wrap : α → Body} {get? : Body → Option α}
  {parse : List ContentLine → Except ContentError α} {validate : α → Validation}
  {serialize : α → Except ContentError (List String)} {body : Body}

/-- A body that passes is one of the kind. -/
theorem exists_of_checkOf (h : (checkOf tag get? validate body).isValid = true) :
    ∃ a, get? body = some a ∧ (validate a).isValid = true := by
  rw [checkOf] at h
  split at h
  · rename_i a ha
    exact ⟨a, ha, h⟩
  · cases h

theorem writeOf_eq {a : α} (h : get? body = some a) :
    writeOf tag get? serialize body = serialize a := by
  rw [writeOf, h]

/-- Whether a body can be written: all its blanks have to be placed, if it has any. -/
def Writable (body : Body) : Prop :=
  ∀ sentences, body = .fillBlank sentences → ∀ s ∈ sentences, s.Placed

/-- If what passes is always written, so are the bodies that pass. -/
theorem exists_writeOf_iff (hget : ∀ sentences, get? (.fillBlank sentences) = none)
    (hwrite : ∀ a, (validate a).isValid = true → ∃ lines, serialize a = .ok lines)
    (h : (checkOf tag get? validate body).isValid = true) :
    (∃ lines, writeOf tag get? serialize body = .ok lines) ↔ Writable body := by
  obtain ⟨a, ha, hvalid⟩ := exists_of_checkOf h
  rw [writeOf_eq ha]
  constructor
  · rintro - sentences rfl
    rw [hget] at ha
    cases ha
  · intro _
    exact hwrite a hvalid

theorem Handles.exists_write_iff {name : Option String} {h : Handling} (hh : Handles tag name h)
    (hv : (h.check body).isValid = true) : (∃ lines, h.write body = .ok lines) ↔ Writable body := by
  cases hh with
  | onText => exact exists_writeOf_iff (fun _ => rfl) (fun _ _ => ⟨_, rfl⟩) hv
  | onImage =>
    exact exists_writeOf_iff (fun _ => rfl) (fun _ => Selector.Image.exists_serialize) hv
  | fillBlank =>
    obtain ⟨sentences, hbody, -⟩ := exists_of_checkOf hv
    obtain rfl : body = .fillBlank sentences := by
      cases body <;> cases hbody
      rfl
    refine FillBlank.exists_serialize_iff_placed.trans ⟨fun hplaced others hothers => ?_, ?_⟩
    · cases hothers
      exact hplaced
    · exact fun hplaced => hplaced sentences rfl
  | multipleChoice =>
    exact exists_writeOf_iff (fun _ => rfl) (fun _ => MultipleChoice.exists_serialize) hv
  | categories => exact exists_writeOf_iff (fun _ => rfl) (fun _ _ => ⟨_, rfl⟩) hv
  | orderedCategories => exact exists_writeOf_iff (fun _ => rfl) (fun _ _ => ⟨_, rfl⟩) hv
  | lake => exact exists_writeOf_iff (fun _ => rfl) (fun _ _ => ⟨_, rfl⟩) hv
  | matching => exact exists_writeOf_iff (fun _ => rfl) (fun _ _ => ⟨_, rfl⟩) hv
  | ordering => exact exists_writeOf_iff (fun _ => rfl) (fun _ _ => ⟨_, rfl⟩) hv
  | single => exact exists_writeOf_iff (fun _ => rfl) (fun _ _ => ⟨_, rfl⟩) hv
  | aligner => exact exists_writeOf_iff (fun _ => rfl) (fun _ _ => ⟨_, rfl⟩) hv

/-- The blanks of what was read are placed. -/
theorem Handles.writable_of_read {name : Option String} {h : Handling} (hh : Handles tag name h)
    {lines : List ContentLine} (hread : h.read lines = .ok body) : Writable body := by
  intro sentences hbody
  cases hh with
  | fillBlank =>
    obtain ⟨found, hfound, rfl⟩ := map_eq_ok_iff.1 hread
    cases hbody
    exact FillBlank.placed_of_parse hfound
  | lake =>
    obtain rfl := Except.ok.inj hread
    cases hbody
  | _ =>
    obtain ⟨found, -, rfl⟩ := map_eq_ok_iff.1 hread
    cases hbody

end Kind

namespace FillBlank

theorem exists_kind : ∃ k, KindRegistry.builtin.get? tag = some k ∧ tag = k.tag ∧
    Kind.fillBlank.grammar = some k.grammar := by
  have hmem : Kind.fillBlank ∈ Kind.builtin := by simp [Kind.builtin]
  obtain ⟨k, hb, hk, htag, -⟩ := KindRegistry.exists_builtin _ hmem
  obtain ⟨-, hgrammar, -⟩ := KindSpec.of_build hb
  exact ⟨k, hk, htag.symm, hgrammar⟩

theorem serialize_builtin (sentences : List FillSentence) :
    KindRegistry.builtin.serialize tag ⟨.fillBlank sentences, none⟩ = serialize sentences := by
  obtain ⟨k, hk, htag, hgrammar⟩ := exists_kind
  have hown : k.writeAs none (.fillBlank sentences) = serialize sentences := by
    rw [Kind.writeAs, ← Option.some.inj hgrammar]
    rfl
  rw [← hown]
  exact KindRegistry.serialize_eq hk htag rfl

end FillBlank

namespace KindRegistry

/-- What passes is checked and written in one of the listed ways. -/
theorem handles_of_isValid {c : Content} (h : (builtin.validate c.tag c).isValid = true) :
    ∃ name own, Kind.Handles c.tag name own ∧ (own.check c.body).isValid = true ∧
      builtin.serialize c.tag c = own.write c.body := by
  cases hk : builtin.get? c.tag with
  | none =>
    rw [validate, hk] at h
    cases h
  | some k =>
    by_cases htag : c.tag = k.tag
    · have hmem : ∀ w, c.variation.bind k.variation? = some w → w ∈ k.variations := by
        intro w hw
        obtain ⟨name, -, hname⟩ := Option.bind_eq_some_iff.1 hw
        exact Kind.mem_of_variation? hname
      have hhandles := handles_builtin (mem_of_get? hk) hmem
      rw [← htag] at hhandles
      rw [validate_eq hk htag rfl] at h
      exact ⟨_, _, hhandles, h, serialize_eq hk htag rfl⟩
    · rw [validate, hk] at h
      simp [htag, Validation.error] at h

/-- What was read and passes is written. -/
theorem exists_serialize_of_parse {tag : String} {lines : List ContentLine} {hint : Option String}
    {c : Content} (h : builtin.parse tag lines hint = .ok c)
    (hv : (builtin.validate c.tag c).isValid = true) :
    ∃ written, builtin.serialize c.tag c = .ok written := by
  obtain ⟨name, own, hhandles, hvalid, hwrite⟩ := handles_of_isValid hv
  cases hk : builtin.get? tag with
  | none =>
    rw [parse, hk] at h
    cases h
  | some k =>
    obtain ⟨v, hchosen, hread, -⟩ := (parse_eq_ok_iff hk).1 h
    have hmem : ∀ w, v = some w → w ∈ k.variations := fun w hw =>
      mem_of_chooseVariation (hw ▸ hchosen)
    have hwritable := (handles_builtin (mem_of_get? hk) hmem).writable_of_read hread
    rw [hwrite]
    exact (hhandles.exists_write_iff hvalid).2 hwritable

/-- Content of a built-in kind that passes its check is written exactly if its blanks, if it has
any, are placed: if they point at placeholders of their sentence and come one after the other. -/
theorem exists_serialize_iff (c : Content) (h : (builtin.validate c.tag c).isValid = true) :
    (∃ lines, builtin.serialize c.tag c = .ok lines) ↔
      ∀ sentences, c.body = .fillBlank sentences → ∀ s ∈ sentences, s.Placed := by
  obtain ⟨name, own, hhandles, hvalid, hwrite⟩ := handles_of_isValid h
  rw [hwrite]
  exact hhandles.exists_write_iff hvalid

theorem exists_serialize_iff_cat :
    let c : Content := ⟨.fillBlank [⟨"The ___ sat.", [⟨4, ["cat", "kitty"]⟩]⟩], none⟩
    (builtin.validate c.tag c).isValid = true ∧
      ((∃ lines, builtin.serialize c.tag c = .ok lines) ↔
        ∀ sentences, c.body = .fillBlank sentences → ∀ s ∈ sentences, s.Placed) := by
  intro c
  have hvalid : (builtin.validate c.tag c).isValid = true := by
    rw [show builtin.validate c.tag c = _ from FillBlank.validate_builtin _]
    decide +kernel
  exact ⟨hvalid, exists_serialize_iff c hvalid⟩

/-- A blank after the end of its sentence passes, but cannot be written. -/
theorem valid_not_serialized :
    let c : Content := ⟨.fillBlank [⟨"The cat sat.", [⟨12, ["x"]⟩]⟩], none⟩
    (builtin.validate c.tag c).isValid = true ∧
      ¬ ∃ lines, builtin.serialize c.tag c = .ok lines := by
  intro c
  have hvalid : (builtin.validate c.tag c).isValid = true := by
    rw [show builtin.validate c.tag c = _ from FillBlank.validate_builtin _]
    decide +kernel
  refine ⟨hvalid, ?_⟩
  rw [show builtin.serialize c.tag c = _ from FillBlank.serialize_builtin _,
    FillBlank.exists_serialize_iff_placed]
  intro h
  have hplaced := (h _ List.mem_cons_self).onPlaceholder _ List.mem_cons_self
  revert hplaced
  decide

end KindRegistry

end Worksheet
