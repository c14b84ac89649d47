import Worksheet.Proofs.Checked.Eval
import Worksheet.Proofs.Eval.Plain
import Worksheet.Proofs.Marker.Extract

namespace Worksheet

open Chars (size slice? slice?_append)

/-- Texts with others in the places between them. -/
def interleave : List String → List String → String
  | [], _ => ""
  | around :: _, [] => around
  | around :: rest, between :: others => around ++ between ++ interleave rest others

/-- The stretches around calls are what is written before the first and after each of them. -/
theorem Placed.Laid.slice?_gaps {placed : List Placed} {before gap : List Char}
    (h : Laid (size (before ++ gap)) placed) :
    List.Forall₂ (fun g t => slice? (before ++ gap ++ written placed) g = some t)
      (gaps (size before) (size (before ++ gap ++ written placed)) (placed.map (·.span)))
      (gap :: placed.map (·.after)) := by
  induction placed generalizing before gap with
  | nil =>
    have hslice := slice?_append before gap []
    refine .cons ?_ .nil
    simpa [written] using hslice
  | cons p rest ih =>
    obtain ⟨hspan, hrest⟩ := h
    have hstart : p.span.start = size before + size gap := by rw [hspan, Chars.size_append]
    have hstop : p.span.stop = size (before ++ gap ++ p.source) := by
      rw [hspan, Chars.size_append (before ++ gap)]
    have hwhole : before ++ gap ++ p.source ++ p.after ++ written rest =
        before ++ gap ++ written (p :: rest) := by
      simp [written_cons]
    rw [hstop, ← Chars.size_append] at hrest
    have htail := ih hrest
    rw [hwhole, ← hstop] at htail
    rw [List.map_cons, gaps, hstart]
    exact .cons (slice?_append before gap (written (p :: rest))) htail

/-- The stretches around the calls of a text are those between which it is cut. -/
theorem Call.slice?_gaps_findAll {text : String} {cut : Segmented Call}
    (h : segment text = .ok cut) :
    List.Forall₂ (fun g t => Text.slice? text g = some t)
      (gaps 0 (Text.size text) ((cut.calls.map (·.1)).map (·.span)))
      (cut.gaps.map String.ofList) := by
  obtain ⟨htext, hlaid⟩ := laid_of_segmentWith h
  rw [← List.nil_append cut.before] at hlaid
  have hslices := hlaid.slice?_gaps
  rw [List.nil_append, ← htext, List.map_map, List.map_map] at hslices
  rw [List.forall₂_map_right_iff, List.map_map]
  apply hslices.imp
  intro g t hslice
  rw [Text.slice?, hslice]
  rfl

theorem Call.slices_unique {text : String} {spans : List Span} {around others : List String}
    (h : List.Forall₂ (fun g t => Text.slice? text g = some t) spans around)
    (hothers : List.Forall₂ (fun g t => Text.slice? text g = some t) spans others) :
    around = others := by
  refine List.right_unique_forall₂' ?_ h hothers
  intro g t other ht hother
  exact Option.some.inj (ht.symm.trans hother)

/-- Calls between texts that are replaced by others. -/
theorem Segmented.render_zip {texts : List String} {afters : List (List Char)}
    (h : texts.length = afters.length) (before : List Char) :
    String.ofList ((⟨before, (texts.map String.toList).zip afters⟩ :
        Segmented (List Char)).render id) =
      interleave ((before :: afters).map String.ofList) texts := by
  induction texts generalizing before afters with
  | nil =>
    obtain rfl := List.eq_nil_of_length_eq_zero h.symm
    simp [render, interleave]
  | cons text texts ih =>
    cases afters with
    | nil => cases h
    | cons after afters =>
      have hrest := ih (Nat.succ.inj h) after
      rw [List.map_cons, List.zip_cons_cons, Segmented.render_cons, List.map_cons, interleave,
        ← hrest]
      simp [String.append_assoc]

namespace Context

variable {σ : Type} (ctx : Context σ)

/-- Calls are evaluated to values one after the other, each from the world that the one before it
has left. -/
inductive Evaluates : World σ → List Call → List Value → World σ → Prop
  | nil (w : World σ) : Evaluates w [] [] w
  | cons {w between after : World σ} {call : Call} {v : Value} {calls : List Call}
    {values : List Value} (first : (ctx.evaluate call).run.run w = (.ok v, between))
    (rest : Evaluates between calls values after) :
    Evaluates w (call :: calls) (v :: values) after

variable {ctx}

theorem Evaluates.length_eq {w w' : World σ} {calls : List Call} {values : List Value}
    (h : ctx.Evaluates w calls values w') : values.length = calls.length := by
  induction h with
  | nil => rfl
  | cons _ _ ih => rw [List.length_cons, List.length_cons, ih]

/-- The texts of the values of calls, with the texts after the calls. -/
theorem run_mapM_eq_ok_iff {calls : List (Call × List Char)} {pieces : List (List Char × List Char)}
    {w w' : World σ} :
    ((calls.mapM fun (call, after) => do
        return ((← ctx.evaluate call).render.toList, after)) : Eval σ _).run.run w =
        (.ok pieces, w') ↔
      ∃ values, ctx.Evaluates w (calls.map (·.1)) values w' ∧
        ((values.map Value.render).map String.toList).zip (calls.map (·.2)) = pieces := by
  induction calls generalizing w pieces with
  | nil =>
    rw [List.mapM_nil, Eval.run_pure_eq_ok]
    constructor
    · rintro ⟨rfl, rfl⟩
      exact ⟨[], .nil w, rfl⟩
    · rintro ⟨values, hvalues, rfl⟩
      cases hvalues
      exact ⟨rfl, rfl⟩
  | cons c rest ih =>
    rw [List.mapM_cons, Eval.run_bind_eq_ok]
    constructor
    · rintro ⟨piece, between, hpiece, h⟩
      obtain ⟨others, _, hothers, h⟩ := Eval.run_bind_eq_ok.1 h
      obtain ⟨rfl, rfl⟩ := Eval.run_pure_eq_ok.1 h
      obtain ⟨v, _, hv, h⟩ := Eval.run_bind_eq_ok.1 hpiece
      obtain ⟨rfl, rfl⟩ := Eval.run_pure_eq_ok.1 h
      obtain ⟨values, hvalues, rfl⟩ := ih.1 hothers
      exact ⟨v :: values, .cons hv hvalues, rfl⟩
    · rintro ⟨values, hvalues, rfl⟩
      cases hvalues with
      | @cons _ between _ _ v _ values hv hrest =>
        refine ⟨(v.render.toList, c.2), between, ?_, ?_⟩
        · exact Eval.run_bind_eq_ok.2 ⟨v, between, hv, rfl⟩
        · exact Eval.run_bind_eq_ok.2 ⟨_, _, ih.2 ⟨values, hrest, rfl⟩, rfl⟩

/-- A text is resolved if the calls between which it is cut are evaluated. -/
theorem resolve_eq_ok_iff {text out : String} {w w' : World σ} :
    (ctx.resolve text).run.run w = (.ok out, w') ↔
      ∃ cut values, Call.segment text = .ok cut ∧
        ctx.Evaluates w (cut.calls.map (·.1)) values w' ∧
        interleave (cut.gaps.map String.ofList) (values.map Value.render) = out := by
  have hrender : ∀ (cut : Segmented Call) (values : List Value),
      ctx.Evaluates w (cut.calls.map (·.1)) values w' →
        String.ofList ((⟨cut.before, ((values.map Value.render).map String.toList).zip
          (cut.calls.map (·.2))⟩ : Segmented (List Char)).render id) =
          interleave (cut.gaps.map String.ofList) (values.map Value.render) := by
    intro cut values hvalues
    refine Segmented.render_zip ?_ cut.before
    rw [List.length_map, List.length_map, hvalues.length_eq, List.length_map]
  rw [resolve, Eval.run_bind_eq_ok]
  constructor
  · rintro ⟨cut, between, hcut, h⟩
    cases hsegment : Call.segment text with
    | error e =>
      rw [hsegment] at hcut
      cases hcut
    | ok found =>
      rw [hsegment] at hcut
      obtain ⟨rfl, rfl⟩ := Eval.run_pure_eq_ok.1 hcut
      obtain ⟨pieces, _, hpieces, h⟩ := Eval.run_bind_eq_ok.1 h
      obtain ⟨rfl, rfl⟩ := Eval.run_pure_eq_ok.1 h
      obtain ⟨values, hvalues, rfl⟩ := run_mapM_eq_ok_iff.1 hpieces
      exact ⟨found, values, rfl, hvalues, (hrender found values hvalues).symm⟩
  · rintro ⟨cut, values, hcut, hvalues, rfl⟩
    refine ⟨cut, w, ?_, ?_⟩
    · rw [hcut]
      rfl
    · refine Eval.run_bind_eq_ok.2 ⟨_, w', run_mapM_eq_ok_iff.2 ⟨values, hvalues, rfl⟩, ?_⟩
      rw [← hrender cut values hvalues]
      rfl

/-- A text as an argument is resolved, be a call in it or not. -/
theorem evaluateParam_text (ctx : Context σ) (s : String) :
    ctx.evaluateParam (.text s) = Value.text <$> ctx.resolve s := by
  rw [evaluateParam]
  split
  · exact bind_pure_comp _ _
  · rename_i hnone
    rw [resolve_of_not_occursIn ctx (Bool.eq_false_iff.2 hnone), map_pure]

/-- A text comes to the stretches around its calls, with the texts of their values in the places of
the calls. An argument that is a text has what it comes to as its value. -/
theorem resolve_splices (ctx : Context σ) :
    (∀ (text out : String) (w w' : World σ), (ctx.resolve text).run.run w = (.ok out, w') ↔
      ∃ calls around values, Call.findAll text = .ok calls ∧
        List.Forall₂ (fun g t => Text.slice? text g = some t)
          (gaps 0 (Text.size text) (calls.map (·.span))) around ∧
        ctx.Evaluates w calls values w' ∧
        out = interleave around (values.map Value.render)) ∧
      ∀ s, ctx.evaluateParam (.text s) = Value.text <$> ctx.resolve s := by
  refine ⟨?_, ctx.evaluateParam_text⟩
  intro text out w w'
  rw [resolve_eq_ok_iff]
  constructor
  · rintro ⟨cut, values, hcut, hvalues, rfl⟩
    refine ⟨cut.calls.map (·.1), cut.gaps.map String.ofList, values, ?_, ?_, hvalues, rfl⟩
    · rw [Call.findAll, hcut]
      rfl
    · exact Call.slice?_gaps_findAll hcut
  · rintro ⟨calls, around, values, hcalls, haround, hvalues, rfl⟩
    obtain ⟨cut, hcut, rfl⟩ := map_eq_ok_iff.1 hcalls
    rw [Call.slices_unique haround (Call.slice?_gaps_findAll hcut)]
    exact ⟨cut, values, hcut, hvalues, rfl⟩

end Context

/-- The texts can be put in the places of the calls from the last call to the first, each at the
bytes at which its call stands in the text that was read. -/
theorem Call.spliceAll_eq_interleave {text : String} {calls : List Call}
    {around texts : List String} (hcalls : findAll text = .ok calls)
    (haround : List.Forall₂ (fun g t => Text.slice? text g = some t)
      (gaps 0 (Text.size text) (calls.map (·.span))) around)
    (hlength : texts.length = calls.length) :
    Checked.spliceAll text.toList (calls.zip (texts.map String.toList)) =
      some (interleave around texts).toList := by
  obtain ⟨cut, hcut, rfl⟩ := map_eq_ok_iff.1 hcalls
  obtain ⟨htext, hlaid⟩ := laid_of_segmentWith hcut
  have hcount : texts.length = (cut.calls.map (·.2)).length := by simpa using hlength
  have hvalues : (texts.map String.toList).length = cut.calls.length := by simpa using hlength
  rw [slices_unique haround (slice?_gaps_findAll hcut), Segmented.gaps,
    ← Segmented.render_zip hcount, Checked.spliceAll_eq hvalues htext hlaid]
  simp [Segmented.render]

end Worksheet
