import Worksheet.Marker
import Worksheet.Proofs.Results

namespace Worksheet

/-- The texts around the calls, in order. -/
def Segmented.gaps {α : Type} (s : Segmented α) : List (List Char) :=
  s.before :: s.calls.map (·.2)

theorem Segmented.render_cons {α : Type} (before : List Char) (call : α) (after : List Char)
    (rest : List (α × List Char)) (replace : α → List Char) :
    (⟨before, (call, after) :: rest⟩ : Segmented α).render replace =
      before ++ (replace call ++ (⟨after, rest⟩ : Segmented α).render replace) := by
  simp [render]

/-- Calls that are replaced by the same texts between the same gaps. -/
theorem Segmented.render_congr {α β : Type} {f : α → List Char} {g : β → List Char}
    {s : Segmented α} {t : Segmented β} (hbefore : s.before = t.before)
    (hcalls : List.Forall₂ (fun a b => f a.1 = g b.1 ∧ a.2 = b.2) s.calls t.calls) :
    s.render f = t.render g := by
  obtain ⟨before, calls⟩ := s
  obtain ⟨other, others⟩ := t
  obtain rfl : before = other := hbefore
  dsimp only at hcalls
  induction hcalls generalizing before with
  | nil => rfl
  | cons hcall _ ih => rw [render_cons, render_cons, hcall.1, hcall.2, ih]

namespace Marker

theorem isSome_of_ofCall? {c : Call} {found : Option Marker} (h : ofCall? c = .ok found) :
    found.isSome = (MarkerKind.ofFunction? c.name).isSome := by
  rw [ofCall?] at h
  split at h
  · rename_i hkind
    obtain rfl := Except.ok.inj h
    simp [hkind]
  · rename_i kind hkind
    rw [hkind]
    split at h
    · cases h
    · obtain rfl := Except.ok.inj h
      rfl
    · obtain rfl := Except.ok.inj h
      rfl

/-- What is left of a text without its decorators. -/
def remainder (cut : Segmented Call) : List Char :=
  cut.render fun call =>
    if (MarkerKind.ofFunction? call.name).isSome then [] else call.source.toList

theorem remainder_of_decorators {cut : Segmented Call}
    (h : ∀ c ∈ cut.calls, (MarkerKind.ofFunction? c.1.name).isSome = true) :
    remainder cut = cut.gaps.flatten := by
  obtain ⟨before, calls⟩ := cut
  induction calls generalizing before with
  | nil => simp [remainder, Segmented.render, Segmented.gaps]
  | cons c rest ih =>
    have hrest := ih c.2 fun d hd => h d (List.mem_cons_of_mem _ hd)
    rw [remainder, Segmented.render_cons, if_pos (h c (by simp))]
    exact congrArg (before ++ ·) hrest

/-- The markers that calls stand for. -/
def Found (calls : List (Call × List Char)) (found : List (Option Marker)) : Prop :=
  List.Forall₂ (fun c m => ofCall? c.1 = .ok m) calls found

/-- The calls together with what they stand for. -/
def withFound (calls : List (Call × List Char)) (found : List (Option Marker)) :
    List ((Call × Option Marker) × List Char) :=
  List.zipWith (fun (call, after) m => ((call, m), after)) calls found

theorem mapM_ofCall?_eq_ok_iff {calls : List (Call × List Char)}
    {marked : List ((Call × Option Marker) × List Char)} :
    (calls.mapM fun (call, after) => (ofCall? call).map fun m => ((call, m), after)) =
        .ok marked ↔ ∃ found, Found calls found ∧ withFound calls found = marked := by
  rw [mapM_eq_ok_iff]
  constructor
  · intro h
    induction h with
    | nil => exact ⟨[], .nil, rfl⟩
    | cons hfirst _ ih =>
      obtain ⟨m, hm, rfl⟩ := map_eq_ok_iff.1 hfirst
      obtain ⟨found, hfound, rfl⟩ := ih
      exact ⟨m :: found, .cons hm hfound, rfl⟩
  · rintro ⟨found, hfound, rfl⟩
    induction hfound with
    | nil => exact .nil
    | cons hm _ ih => exact .cons (map_eq_ok_iff.2 ⟨_, hm, rfl⟩) ih

theorem filterMap_withFound {calls : List (Call × List Char)} {found : List (Option Marker)}
    (h : Found calls found) : (withFound calls found).filterMap (·.1.2) = found.filterMap id := by
  induction h with
  | nil => rfl
  | @cons c m calls found _ _ ih =>
    have hcons : withFound (c :: calls) (m :: found) = ((c.1, m), c.2) :: withFound calls found :=
      rfl
    rw [hcons, List.filterMap_cons, List.filterMap_cons, ih]
    rfl

theorem render_withFound {calls : List (Call × List Char)} {found : List (Option Marker)}
    (h : Found calls found) (before : List Char) :
    (⟨before, withFound calls found⟩ : Segmented (Call × Option Marker)).render
        (fun (call, m) => if m.isSome then [] else call.source.toList) =
      remainder ⟨before, calls⟩ := by
  refine Segmented.render_congr rfl ?_
  dsimp only
  induction h with
  | nil => exact .nil
  | @cons c m calls found hm _ ih =>
    refine .cons ⟨?_, rfl⟩ ih
    show (if m.isSome then [] else c.1.source.toList) = _
    rw [isSome_of_ofCall? hm]

/-- What is taken out of a line and what is left of it. -/
theorem extract_eq_ok_iff {line text : String} {markers : List Marker} :
    extract line = .ok (text, markers) ↔
      ∃ cut found, Call.segment line = .ok cut ∧ Found cut.calls found ∧
        found.filterMap id = markers ∧
        String.ofList (if markers.isEmpty then remainder cut
          else Chars.collapse (remainder cut)) = text := by
  rw [extract]
  cases Call.segment line with
  | error e => simp [bind, Except.bind]
  | ok cut =>
    constructor
    · intro h
      cases hmapped : (cut.calls.mapM fun (call, after) =>
          (ofCall? call).map fun m => ((call, m), after)) with
      | error e =>
        simp only [bind, Except.bind, hmapped] at h
        cases h
      | ok marked =>
        obtain ⟨found, hfound, rfl⟩ := mapM_ofCall?_eq_ok_iff.1 hmapped
        simp only [bind, Except.bind, hmapped, pure, Except.pure, filterMap_withFound hfound,
          render_withFound hfound] at h
        obtain ⟨htext, hmarkers⟩ := Prod.mk.inj (Except.ok.inj h)
        exact ⟨cut, found, rfl, hfound, hmarkers, hmarkers ▸ htext⟩
    · rintro ⟨same, found, hsame, hfound, rfl, rfl⟩
      obtain rfl := Except.ok.inj hsame
      have hmapped := mapM_ofCall?_eq_ok_iff.2 ⟨found, hfound, rfl⟩
      simp only [bind, Except.bind, hmapped, pure, Except.pure, filterMap_withFound hfound,
        render_withFound hfound]

end Marker
end Worksheet
