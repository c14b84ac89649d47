import Mathlib.Data.List.Chain
import Worksheet.Proofs.Checked.Scan
import Worksheet.Proofs.FillBlank.Placed

namespace Worksheet.Checked

open FillBlank (placeholder marked Replaced)

/-- The sum of two words. Near the largest word it wraps around to the start of a text. -/
def wrappingAdd (a b : Nat) : Nat :=
  (a + b) % UInt64.size

/-- The error for a blank that points at no placeholder of the text. -/
def misplaced (text : String) (position : Nat) : ContentError :=
  .line 0 (.misplacedBlank position text)

/-- Writes what follows a cursor in the text after what is written already. -/
def fill (text : String) (written : List Char) (cursor : Nat) :
    List Blank → OptionT (Except ContentError) (List Char)
  | [] => do
    let rest ← access (range text.toList cursor text.toList.length)
    return written ++ rest
  | b :: bs => do
    let stop := wrappingAdd b.position placeholder.length
    let found := (range text.toList b.position stop).getD []
    if b.position < cursor ∨ found ≠ placeholder then
      OptionT.lift (.error (misplaced text b.position))
    else
      let between ← access (range text.toList cursor b.position)
      fill text (written ++ between ++ marked b) stop bs

def renderSentence (s : FillSentence) : OptionT (Except ContentError) String :=
  String.ofList <$> fill s.text [] 0 s.blanks

/-- A stretch to a sum that may have wrapped around is a placeholder exactly if one stands at the
position. -/
theorem found_eq_placeholder_iff {cs : List Char} (hcs : cs.length < UInt64.size) (position : Nat) :
    (range cs position (wrappingAdd position placeholder.length)).getD [] = placeholder ↔
      placeholder <+: cs.drop position := by
  have hlength : placeholder.length = 3 := rfl
  constructor
  · intro h
    rw [range] at h
    split at h
    · rename_i hrange
      rw [Option.getD_some, List.drop_take] at h
      rw [← h]
      exact List.take_prefix _ _
    · cases h
  · rintro ⟨rest, hrest⟩
    have hsum : position + placeholder.length ≤ cs.length := by
      have hdrop := congrArg List.length hrest
      rw [List.length_append, List.length_drop] at hdrop
      omega
    have hwrap : wrappingAdd position placeholder.length = position + placeholder.length :=
      Nat.mod_eq_of_lt (by omega)
    rw [hwrap, range_of_le (Nat.le_add_right _ _) hsum, Option.getD_some, List.drop_take, ← hrest,
      Nat.add_sub_cancel_left, List.take_left]

/-- What is left of a text at a cursor is written without a failing access. -/
theorem safe_fill {text : String} (htext : text.toList.length < UInt64.size) {done rest : List Char}
    (hrest : text.toList = done ++ rest) (written : List Char) (bs : List Blank) :
    Safe (fill text written done.length bs)
      (((FillBlank.fill done.length rest bs).map (written ++ ·)).mapError (misplaced text)) := by
  induction bs generalizing done rest written with
  | nil =>
    have hwhole : text.toList = done ++ rest ++ [] := by rw [hrest, List.append_nil]
    have hlength : text.toList.length = done.length + rest.length := by
      rw [hrest, List.length_append]
    exact Safe.after (safe_pure _) (range_append hwhole rfl hlength)
  | cons b bs ih =>
    have hdrop (hle : done.length ≤ b.position) :
        text.toList.drop b.position = rest.drop (b.position - done.length) := by
      rw [hrest, List.drop_append, List.drop_eq_nil_of_le hle, List.nil_append]
    have hfound := found_eq_placeholder_iff htext b.position
    rw [fill]
    split
    · rename_i hbad
      have herror : FillBlank.fill done.length rest (b :: bs) = .error b.position := by
        by_cases hlt : b.position < done.length
        · exact FillBlank.fill_cons_of_lt hlt
        · refine FillBlank.fill_cons_of_none fun hplaced => ?_
          rw [← hdrop (Nat.le_of_not_lt hlt)] at hplaced
          exact hbad.elim hlt fun hnot => hnot (hfound.2 hplaced)
      rw [herror]
      exact safe_lift _
    · rename_i hgood
      obtain ⟨hle, hplaced⟩ : done.length ≤ b.position ∧
          placeholder <+: rest.drop (b.position - done.length) := by
        rw [not_or, Nat.not_lt, ne_eq, Classical.not_not] at hgood
        exact ⟨hgood.1, hdrop hgood.1 ▸ hfound.1 hgood.2⟩
      obtain ⟨between, after, rfl, hposition⟩ := FillBlank.exists_cut hle hplaced
      have hwhole : text.toList = done ++ between ++ (placeholder ++ after) := by simp [hrest]
      have hnext : text.toList = (done ++ between ++ placeholder) ++ after := by simp [hrest]
      have hcursor : b.position + placeholder.length = (done ++ between ++ placeholder).length := by
        simp [hposition, Nat.add_assoc]
      -- The sum is a place of the text, so that it does not wrap around.
      have hstop : wrappingAdd b.position placeholder.length =
          (done ++ between ++ placeholder).length := by
        have hprefix : done ++ between ++ placeholder <+: text.toList := ⟨after, hnext.symm⟩
        rw [wrappingAdd, hcursor]
        exact Nat.mod_eq_of_lt (Nat.lt_of_le_of_lt hprefix.length_le htext)
      rw [hstop, FillBlank.fill_append hposition, hcursor]
      refine Safe.after ((ih hnext (written ++ between ++ marked b)).of_eq ?_)
        (range_append hwhole rfl hposition)
      cases FillBlank.fill (done ++ between ++ placeholder).length after bs <;>
        simp [Except.map, Except.mapError]

theorem safe_renderSentence {s : FillSentence} (h : s.text.length < UInt64.size) :
    Safe (renderSentence s) (FillBlank.renderSentence s) := by
  have htext : s.text.toList.length < UInt64.size := by rwa [String.length_toList]
  refine ((safe_fill htext (List.nil_append _).symm [] s.blanks).map String.ofList).of_eq ?_
  rw [FillBlank.renderSentence, List.length_nil]
  cases FillBlank.fill 0 s.text.toList s.blanks <;> rfl

theorem prefix_drop_iff {cs : List Char} {position : Nat} : placeholder <+: cs.drop position ↔
    position + 3 ≤ cs.length ∧ (cs.drop position).take 3 = ['_', '_', '_'] := by
  rw [List.prefix_iff_eq_take]
  constructor
  · intro h
    have hlength := congrArg List.length h
    rw [List.length_take, List.length_drop] at hlength
    have hthree : placeholder.length = 3 := rfl
    exact ⟨by omega, h.symm⟩
  · rintro ⟨-, h⟩
    exact h.symm

/-- It is enough that each blank is behind the one right before it. -/
theorem placed_iff {s : FillSentence} : s.Placed ↔
    (∀ b ∈ s.blanks, b.position + 3 ≤ s.text.length ∧
      (s.text.toList.drop b.position).take 3 = ['_', '_', '_']) ∧
    s.blanks.IsChain fun b d => b.position + 3 ≤ d.position := by
  have : Trans (fun b d : Blank => b.position + 3 ≤ d.position)
      (fun b d : Blank => b.position + 3 ≤ d.position)
      (fun b d : Blank => b.position + 3 ≤ d.position) := ⟨fun hab hbc => by omega⟩
  rw [List.isChain_iff_pairwise, ← String.length_toList]
  constructor
  · rintro ⟨apart, onPlaceholder⟩
    exact ⟨fun b hb => prefix_drop_iff.1 (onPlaceholder b hb), apart⟩
  · rintro ⟨onPlaceholder, apart⟩
    exact ⟨apart, fun b hb => prefix_drop_iff.2 (onPlaceholder b hb)⟩

/-- Writing a sentence makes no failing access, whatever its positions are. It succeeds exactly if
each blank has a placeholder at its position, and these do not overlap and are in order. The line is
then the text with the answers in the place of these placeholders. The length of a text is a
word. -/
theorem renderSentence_exact (s : FillSentence) (h : s.text.length < UInt64.size) :
    (renderSentence s).run = some <$> FillBlank.renderSentence s ∧
    ((∃ line, FillBlank.renderSentence s = .ok line) ↔
      (∀ b ∈ s.blanks, b.position + 3 ≤ s.text.length ∧
        (s.text.toList.drop b.position).take 3 = ['_', '_', '_']) ∧
      s.blanks.IsChain fun b d => b.position + 3 ≤ d.position) ∧
    (∀ line, FillBlank.renderSentence s = .ok line ↔
      ∃ pieces rest, Replaced 0 s.text.toList s.blanks line.toList pieces rest) ∧
    ∀ e, FillBlank.renderSentence s = .error e →
      ∃ b ∈ s.blanks, e = .line 0 (.misplacedBlank b.position s.text) := by
  refine ⟨safe_renderSentence h, FillBlank.exists_renderSentence_iff.trans placed_iff,
    fun line => ?_, fun e he => ?_⟩
  · rw [← FillBlank.fill_eq_ok_iff, FillBlank.renderSentence_eq_ok_iff]
  · exact FillBlank.misplaced_of_renderSentence he

/-- A placeholder within a longer run of underscores. -/
theorem renderSentence_exact_run :
    let s : FillSentence := ⟨"____ ___", [⟨1, ["a", "b"]⟩, ⟨5, ["c"]⟩]⟩
    s.text.length < UInt64.size ∧ (renderSentence s).run = some <$> FillBlank.renderSentence s ∧
      FillBlank.renderSentence s = .ok "_*a|b* *c*" ∧
      s.blanks.IsChain fun b d => b.position + 3 ≤ d.position := by
  intro s
  have hlength : s.text.length < UInt64.size := by decide
  have hline : FillBlank.renderSentence s = .ok "_*a|b* *c*" := by decide +kernel
  obtain ⟨hsafe, hiff, -⟩ := renderSentence_exact s hlength
  exact ⟨hlength, hsafe, hline, (hiff.1 ⟨_, hline⟩).2⟩

/-- The sum wraps around to the end of the placeholder at the start. -/
example : (renderSentence ⟨"___", [⟨UInt64.size - 1, ["a"]⟩]⟩).run =
    .error (.line 0 (.misplacedBlank (UInt64.size - 1) "___")) := by
  rfl

end Worksheet.Checked
