import Worksheet.Proofs.Kind.Handling
import Worksheet.Proofs.Results

namespace Worksheet

/-- All that is read has the tag. -/
def ReadsTag (tag : String) (read : List ContentLine → Except ContentError Body) : Prop :=
  ∀ lines body, read lines = .ok body → body.tag = tag

theorem Handling.ofContent_readsTag {α : Type} {tag : String} {wrap : α → Body}
    {get? : Body → Option α} {parse : List ContentLine → Except ContentError α}
    {validate : α → Validation} {serialize : α → Except ContentError (List String)}
    (h : ∀ a, (wrap a).tag = tag) :
    ReadsTag tag (ofContent tag wrap get? parse validate serialize).read := by
  intro lines body hread
  obtain ⟨a, -, rfl⟩ := map_eq_ok_iff.1 hread
  exact h a

theorem Kind.Handles.readsTag {tag : String} {name : Option String} {h : Handling}
    (hh : Handles tag name h) : ReadsTag tag h.read := by
  cases hh <;> exact Handling.ofContent_readsTag fun _ => rfl

namespace KindRegistry

/-- Content that is read by its kind is of that kind. -/
theorem tag_of_parse {tag : String} {lines : List ContentLine} {hint : Option String} {c : Content}
    (h : builtin.parse tag lines hint = .ok c) :
    ∃ k, builtin.get? tag = some k ∧ c.tag = k.tag := by
  cases hk : builtin.get? tag with
  | none =>
    rw [parse, hk] at h
    cases h
  | some k =>
    obtain ⟨v, hv, hread, -⟩ := (parse_eq_ok_iff hk).1 h
    have hmem : ∀ w, v = some w → w ∈ k.variations := fun w hw =>
      mem_of_chooseVariation (hw ▸ hv)
    exact ⟨k, rfl, (handles_builtin (mem_of_get? hk) hmem).readsTag lines c.body hread⟩

/-- Content is read in the same way by the name of its own kind. -/
theorem parse_own_tag {tag : String} {lines : List ContentLine} {hint : Option String} {c : Content}
    (h : builtin.parse tag lines hint = .ok c) : builtin.parse c.tag lines hint = .ok c := by
  obtain ⟨k, hk, htag⟩ := tag_of_parse h
  have hfound : builtin.get? c.tag = some k := by
    rw [htag]
    exact foundByTag_builtin k (mem_of_get? hk)
  rw [parse_eq_ok_iff hk] at h
  rwa [parse_eq_ok_iff hfound]

end KindRegistry

end Worksheet
