import Worksheet.Proofs.Chars.Pieces
import Worksheet.Proofs.Kind.Tags
import Worksheet.Proofs.Matching.RoundTrip

namespace Worksheet.Matching

open Chars (isBlank)

theorem append_of_splitPair {cs left right : List Char} (h : splitPair cs = some (left, right)) :
    ∃ sep, cs = left ++ sep ++ right := by
  fun_induction splitPair cs generalizing left with
  | case1 => cases h
  | case2 rest =>
    obtain ⟨rfl, rfl⟩ := Prod.mk.inj (Option.some.inj h)
    exact ⟨[':', ':'], rfl⟩
  | case3 c rest hdouble hc =>
    obtain ⟨rfl, rfl⟩ := Prod.mk.inj (Option.some.inj h)
    exact ⟨[c], rfl⟩
  | case4 c rest hdouble hc ih =>
    obtain ⟨⟨before, after⟩, hsplit, he⟩ := Option.map_eq_some_iff.1 h
    obtain ⟨rfl, rfl⟩ := Prod.mk.inj he
    obtain ⟨sep, rfl⟩ := ih hsplit
    exact ⟨sep, rfl⟩

/-- The items of a pair are stretches of its text. -/
theorem mem_of_parsePair {text : String} {p : MatchPair} (h : parsePair text = some p) {c : Char}
    (hc : c ∈ p.left.toList ∨ c ∈ p.right.toList) : c ∈ text.toList := by
  obtain ⟨⟨left, right⟩, hsplit, rfl⟩ := Option.map_eq_some_iff.1 h
  obtain ⟨sep, hsep⟩ := append_of_splitPair hsplit
  rw [String.toList_ofList, String.toList_ofList] at hc
  rw [hsep, List.mem_append, List.mem_append]
  rcases hc with hc | hc
  · exact Or.inl (Or.inl (Chars.mem_of_mem_trim hc))
  · exact Or.inr (Chars.mem_of_mem_trim hc)

theorem count_le_of_parsePair {text : String} {p : MatchPair} (h : parsePair text = some p)
    {c : Char} (hc : isBlank c = false) :
    p.left.toList.count c + p.right.toList.count c ≤ text.toList.count c := by
  obtain ⟨⟨left, right⟩, hsplit, rfl⟩ := Option.map_eq_some_iff.1 h
  obtain ⟨sep, hsep⟩ := append_of_splitPair hsplit
  rw [String.toList_ofList, String.toList_ofList, Chars.count_trim hc, Chars.count_trim hc, hsep,
    List.count_append, List.count_append]
  omega

/-- A written pair is its items with a separator and spaces between them. -/
theorem toList_renderPair (p : MatchPair) : ∃ sep, (sep = ['='] ∨ sep = [':', ':']) ∧
    (renderPair p).toList = p.left.toList ++ ' ' :: sep ++ ' ' :: p.right.toList := by
  cases hs : isSpecial p.left || isSpecial p.right with
  | true =>
    refine ⟨[':', ':'], Or.inr rfl, ?_⟩
    rw [renderPair_of_special hs]
    simp
  | false =>
    refine ⟨['='], Or.inl rfl, ?_⟩
    rw [renderPair_of_not_special hs]
    simp

/-- The closing braces of a written pair are those of its items. -/
theorem count_renderPair (p : MatchPair) : (renderPair p).toList.count '\x7d' =
    p.left.toList.count '\x7d' + p.right.toList.count '\x7d' := by
  obtain ⟨sep, hsep, hp⟩ := toList_renderPair p
  rw [hp]
  rcases hsep with rfl | rfl <;> simp

theorem not_mem_renderPair {p : MatchPair} (hleft : '\n' ∉ p.left.toList)
    (hright : '\n' ∉ p.right.toList) : '\n' ∉ (renderPair p).toList := by
  obtain ⟨sep, hsep, hp⟩ := toList_renderPair p
  rw [hp]
  rcases hsep with rfl | rfl <;> simp [hleft, hright]

/-- What stands before a closing brace of a written pair is not read as that pair. -/
theorem parsePair_ne_of_append {p : MatchPair} {text : String}
    (h : text.toList ++ ['\x7d'] <+: (renderPair p).toList) :
    parsePair (Text.trim text) ≠ some p := by
  rw [parsePair_trim]
  intro hp
  have hread := count_le_of_parsePair hp (c := '\x7d') (by decide)
  have hwritten := h.sublist.count_le '\x7d'
  rw [List.count_append, count_renderPair, List.count_singleton_self] at hwritten
  omega

theorem getLast?_renderPair {p : MatchPair} (h : WellRead p) :
    (renderPair p).toList.getLast? ≠ some '\r' := by
  obtain ⟨sep, -, hp⟩ := toList_renderPair p
  rw [hp, List.getLast?_append]
  cases hlast : p.right.toList.getLast? with
  | none =>
    have hnil : p.right.toList = [] := List.getLast?_eq_none_iff.1 hlast
    simp [hnil]
  | some c =>
    have hc : isBlank c = false := by
      have ht := h.right.last
      rw [hlast] at ht
      simpa using ht
    have hne : c ≠ '\r' := by
      rintro rfl
      exact absurd hc (by decide)
    rw [List.getLast?_cons, hlast]
    simpa using hne

/-- No written pair is a lone opening brace. -/
theorem trim_renderPair_ne_brace (p : MatchPair) : Text.trim (renderPair p) ≠ "\x7b" := by
  intro he
  have hq : qualifies (Text.trim (renderPair p)) = true := by
    rw [qualifies_trim, qualifies_renderPair]
  rw [he] at hq
  exact absurd hq (by decide)

theorem exists_kind : ∃ k, KindRegistry.builtin.get? tag = some k ∧ k.tag = tag ∧
    k.variations = [] ∧ Kind.matching.grammar = some k.grammar := by
  have hmem : Kind.matching ∈ Kind.builtin := by simp [Kind.builtin]
  obtain ⟨k, hb, hk, htag, hvariations, -⟩ := KindRegistry.exists_builtin _ hmem
  obtain ⟨-, hgrammar, -⟩ := KindSpec.of_build hb
  exact ⟨k, hk, htag, hvariations, hgrammar⟩

/-- Matching content is a list of pairs without a variation. -/
theorem parse_builtin_iff {lines : List ContentLine} {hint : Option String} {c : Content} :
    KindRegistry.builtin.parse tag lines hint = .ok c ↔
      hint = none ∧ ∃ pairs, parse lines = .ok pairs ∧ c = ⟨.matching pairs, none⟩ := by
  obtain ⟨k, hk, -, hvariations, hgrammar⟩ := exists_kind
  have hparse : k.grammar.parse = fun lines => (parse lines).map .matching := by
    rw [← Option.some.inj hgrammar]
    rfl
  rw [KindRegistry.parse_eq_ok_iff_of_nil hk hvariations, hparse, map_eq_ok_iff]
  obtain ⟨body, variation⟩ := c
  constructor
  · rintro ⟨hhint, ⟨pairs, hpairs, rfl⟩, rfl⟩
    exact ⟨hhint, pairs, hpairs, rfl⟩
  · rintro ⟨hhint, pairs, hpairs, hc⟩
    obtain ⟨rfl, rfl⟩ := Content.mk.inj hc
    exact ⟨hhint, ⟨pairs, hpairs, rfl⟩, rfl⟩

theorem serialize_builtin (pairs : List MatchPair) :
    KindRegistry.builtin.serialize tag ⟨.matching pairs, none⟩ = .ok (serialize pairs) := by
  obtain ⟨k, hk, htag, -, hgrammar⟩ := exists_kind
  have hown : k.writeAs none (.matching pairs) = .ok (serialize pairs) := by
    rw [Kind.writeAs, ← Option.some.inj hgrammar]
    rfl
  rw [← hown]
  exact KindRegistry.serialize_eq hk htag.symm rfl

/-- Only categories inherit instructions. -/
theorem inheritInstructions_eq_iff {c : Content} {instructions : Option String}
    {pairs : List MatchPair} : c.inheritInstructions instructions = ⟨.matching pairs, none⟩ ↔
      c = ⟨.matching pairs, none⟩ := by
  obtain ⟨body, variation⟩ := c
  cases body with
  | categorize categories =>
    cases instructions with
    | none => rfl
    | some text =>
      simp only [Content.inheritInstructions]
      split <;> simp
  | _ => rfl

end Worksheet.Matching
