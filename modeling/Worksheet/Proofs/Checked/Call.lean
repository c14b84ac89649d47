import Worksheet.Call.Definition
import Worksheet.Proofs.Chars.AsciiCase
import Worksheet.Proofs.Checked.Placed
import Worksheet.Proofs.Checked.Scan

namespace Worksheet.Checked

open Chars (size eq_nil_of_size_eq_zero)

variable {α : Type}

/-- Whether a call opens at the at sign at an offset. -/
def opensAt (text : List Char) (place : Nat) : Option Bool := do
  let rest ← onward text (place + 1)
  let name := rest.takeWhile Text.isIdentChar
  if name.head?.any Text.isIdentStart then
    return (← onward rest (size name)).head? == some '('
  else return false

/-- Whether a call begins at the given character, which stands at an offset. -/
def callAt (text : List Char) (prev : Option Char) (place : Nat) (c : Char) : Option Bool :=
  if c == '@' && !prev.any Text.isIdentChar then opensAt text place else some false

/-- Whether a call begins in the rest of a text from an offset on. -/
def opensCallFrom (text : List Char) (prev : Option Char) (place : Nat) : List Char → Option Bool
  | [] => some false
  | c :: cs => do
    if ← callAt text prev place c then return true
    else opensCallFrom text (some c) (place + c.utf8Size) cs

def opensCall (text : List Char) : Option Bool :=
  opensCallFrom text none 0 text

/-- Moves the place of a fault by the place of the fragment in which it was found. -/
def shiftError (n : Nat) (c : OptionT (Except CallError) α) : OptionT (Except CallError) α :=
  OptionT.mk (Worksheet.shiftError n c.run)

section Reading

variable (param : List Char → OptionT (Except CallError) Param)

/-- The text behind one equals sign, not two. -/
def afterEquals? : List Char → Option (List Char)
  | '=' :: '=' :: _ => none
  | '=' :: value => some value
  | _ => none

/-- Reads an argument: a value, or a name, one equals sign and a value. -/
def readArgument (cs : List Char) : OptionT (Except CallError) (Argument Param) := do
  let length := (cs.takeWhile Text.isIdentChar).length
  if cs.head?.any Text.isIdentStart then
    match afterEquals? (Chars.trimStart (← access (onward cs length))) with
    | some value =>
      let name ← access (upTo cs length)
      (⟨some (Text.asciiLower (String.ofList name)), ·⟩) <$> param value
    | none => (⟨none, ·⟩) <$> param cs
  else (⟨none, ·⟩) <$> param cs

def readArguments (cs : List Char) : OptionT (Except CallError) (List (Argument Param)) :=
  if cs.all Chars.isBlank then pure []
  else do
    let pieces ← access (splitTopLevel ',' cs)
    pieces.mapM fun piece => shiftError piece.span.start (readArgument param piece.text)

/-- Reads a call that the scan finds in a text. -/
def readCall (text : List Char) (c : FoundCall) : OptionT (Except CallError) Call := do
  let inner ← access (slice text c.inner.start c.inner.stop)
  let arguments ← shiftError c.inner.start (readArguments param inner)
  let source ← access (slice text c.span.start c.span.stop)
  return ⟨String.ofList c.name, arguments, c.span, String.ofList source⟩

/-- The calls of a text. -/
def findCalls (style : CallStyle) (text : List Char) : OptionT (Except CallError) (List Call) := do
  (← scanFrom style text 0).mapM (readCall param text)

/-- Reads a text that begins with an at sign: a call if it makes up the text. -/
def readMarked (raw : List Char) : OptionT (Except CallError) Param := do
  let calls ← findCalls param .marked raw
  if calls.length == 1 then
    let c ← access calls[0]?
    return if c.span = ⟨0, size raw⟩ then .call c else .text (String.ofList raw)
  else return .text (String.ofList raw)

def readItems (inner : List Char) : OptionT (Except CallError) (List Param) :=
  if inner.all Chars.isBlank then pure []
  else do
    let pieces ← access (splitTopLevel ',' inner)
    pieces.mapM fun piece => shiftError (piece.span.start + 1) (param piece.text)

/-- Reads `key: value` or `key = value`. -/
def readEntry (piece : Piece) : OptionT (Except CallError) (String × Param) := do
  match ← access (cutTopLevel [':', '='] piece.text) with
  | none =>
    OptionT.lift (.error ⟨.entryWithoutKey (String.ofList piece.text), piece.span.shift 1⟩)
  | some (before, value) =>
    let key := (← access (unquote before)).getD (Chars.trim before)
    (Text.asciiLower (String.ofList key), ·) <$> shiftError (piece.span.start + 1) (param value)

def readEntries (inner : List Char) : OptionT (Except CallError) (Keyed Param) := do
  let pieces ← access (splitTopLevel ',' inner)
  Keyed.ofList <$> (pieces.filter (!·.text.isEmpty)).mapM (readEntry param)

end Reading

/-- Reads a value that may still be nested one level less deep than the given number. -/
def readParam : Nat → List Char → OptionT (Except CallError) Param
  | 0, cs => OptionT.lift (.error ⟨.tooDeep Param.maxNesting, ⟨0, size (Chars.trim cs)⟩⟩)
  | n + 1, cs => do
    let raw := Chars.trim cs
    match ← access (unquote raw) with
    | some s => return .text (String.ofList s)
    | none =>
      if raw.head? == some '@' then readMarked (readParam n) raw
      else match Param.enclosed? '[' ']' raw with
        | some inner => .list <$> readItems (readParam n) inner
        | none =>
          match Param.enclosed? '\x7b' '\x7d' raw with
          | some inner => .object <$> readEntries (readParam n) inner
          | none => return Param.ofBare raw

section Opening

theorem any_isIdentStart_takeWhile (cs : List Char) :
    (cs.takeWhile Text.isIdentChar).head?.any Text.isIdentStart =
      cs.head?.any Text.isIdentStart := by
  cases cs with
  | nil => rfl
  | cons c cs =>
    rw [List.takeWhile_cons]
    split
    · rfl
    · rename_i hc
      have hstart : Text.isIdentStart c = false :=
        Bool.eq_false_iff.2 fun h => hc (isIdentChar_of_isIdentStart h)
      simp [hstart]

theorem opensAt_append {text done rest : List Char} (htext : text = done ++ '@' :: rest) :
    opensAt text (size done) = some (CallStyle.named? rest).isSome := by
  have hafter : text = (done ++ ['@']) ++ rest := by simp [htext]
  have hsize : size done + 1 = size (done ++ ['@']) := by
    rw [Chars.size_append]
    rfl
  have hsplit : rest = rest.takeWhile Text.isIdentChar ++ rest.dropWhile Text.isIdentChar :=
    List.takeWhile_append_dropWhile.symm
  rw [opensAt, onward_append hafter hsize, named?_eq]
  simp only [Option.bind_eq_bind, Option.bind_some, any_isIdentStart_takeWhile,
    onward_append hsplit rfl]
  cases hstart : rest.head?.any Text.isIdentStart with
  | false => rfl
  | true =>
    by_cases hparen : (rest.dropWhile Text.isIdentChar).head? = some '('
    · simp [hparen]
    · simp [hparen]

theorem callAt_append {text done rest : List Char} {c : Char} (htext : text = done ++ c :: rest)
    (prev : Option Char) : callAt text prev (size done) c =
      some (CallStyle.marked.opening? prev (c :: rest)).isSome := by
  by_cases hc : c = '@'
  · subst hc
    rw [callAt, CallStyle.opening?, opensAt_append htext]
    cases prev.any Text.isIdentChar <;> rfl
  · simp [hc, callAt, CallStyle.opening?]

theorem opensCallFrom_append {text done rest : List Char} (htext : text = done ++ rest)
    (prev : Option Char) :
    opensCallFrom text prev (size done) rest = some (Worksheet.opensCall prev rest) := by
  induction rest generalizing done prev with
  | nil => rfl
  | cons c rest ih =>
    have hnext : text = (done ++ [c]) ++ rest := by simp [htext]
    have hrest := ih hnext (some c)
    rw [Chars.size_append] at hrest
    rw [opensCallFrom, Worksheet.opensCall, callAt_append htext]
    simp only [Option.bind_eq_bind, Option.bind_some]
    cases (CallStyle.marked.opening? prev (c :: rest)).isSome with
    | true => rfl
    | false => exact hrest

theorem opensCall_eq (text : List Char) :
    opensCall text = some (Worksheet.opensCall none text) :=
  opensCallFrom_append (List.nil_append text).symm none

end Opening

/-- A computation goes on with what it comes to, if it does not fail. -/
theorem Safe.bind_map {ε β γ : Type} {c : OptionT (Except ε) β} {x : Except ε α} {h : α → β}
    {f : β → OptionT (Except ε) γ} {g : α → Except ε γ} (hc : Safe c (x.map h))
    (hf : ∀ a, x = .ok a → Safe (f (h a)) (g a)) : Safe (c >>= f) (x >>= g) := by
  have hrun : c.run = some <$> x.map h := hc
  rw [Safe, OptionT.run_bind, hrun]
  cases x with
  | error e => rfl
  | ok a => exact hf a rfl

theorem Safe.shiftError {c : OptionT (Except CallError) α} {x : Except CallError α} (h : Safe c x)
    (n : Nat) : Safe (shiftError n c) (Worksheet.shiftError n x) := by
  have hrun : c.run = some <$> x := h
  rw [Safe, Checked.shiftError, OptionT.run_mk, hrun]
  cases x <;> rfl

section Reading

variable {param : List Char → OptionT (Except CallError) Param}
  {plain : List Char → Except CallError Param}

theorem read_of_isIdentStart {cs : List Char} (h : cs.head?.any Text.isIdentStart = true) :
    Argument.read plain cs =
      match afterEquals? (Chars.trimStart (cs.dropWhile Text.isIdentChar)) with
      | some value => (plain value).map fun v =>
        ⟨some (Text.asciiLower (String.ofList (cs.takeWhile Text.isIdentChar))), v⟩
      | none => (plain cs).map fun v => ⟨none, v⟩ := by
  rw [Argument.read]
  simp only [any_isIdentStart_takeWhile, h, if_true]
  rfl

theorem readArgument_safe (h : ∀ cs, Safe (param cs) (plain cs)) (cs : List Char) :
    Safe (readArgument param cs) (Argument.read plain cs) := by
  have hsplit : cs = cs.takeWhile Text.isIdentChar ++ cs.dropWhile Text.isIdentChar :=
    List.takeWhile_append_dropWhile.symm
  have hlength : (cs.takeWhile Text.isIdentChar).length = size (cs.takeWhile Text.isIdentChar) :=
    (Chars.size_of_ident (List.all_eq_true.1 List.all_takeWhile)).symm
  rw [readArgument]
  cases hstart : cs.head?.any Text.isIdentStart with
  | true =>
    rw [read_of_isIdentStart hstart, if_pos rfl]
    refine Safe.after ?_ (onward_append hsplit hlength)
    split
    · refine Safe.after ?_ (upTo_append hsplit hlength)
      exact (h _).map _
    · exact (h cs).map _
  | false =>
    rw [Argument.read]
    simp only [any_isIdentStart_takeWhile, hstart]
    exact (h cs).map _

theorem readArguments_safe (h : ∀ cs, Safe (param cs) (plain cs)) (cs : List Char) :
    Safe (readArguments param cs) (Argument.readAll plain cs) := by
  rw [readArguments, Argument.readAll]
  split
  · exact safe_pure []
  · apply Safe.after _ (splitTopLevel_eq ',' cs)
    exact Safe.mapM fun piece _ => (readArgument_safe h piece.text).shiftError _

/-- A call that is read where it stands. -/
theorem readCall_safe (h : ∀ cs, Safe (param cs) (plain cs)) {text before after : List Char}
    {c : RawCall} (htext : text = before ++ c.source ++ after) (hstart : c.start = size before) :
    Safe (readCall param text c.found) (c.read plain) := by
  have harguments : text = (before ++ c.head) ++ c.inner ++ (')' :: after) := by
    simp [htext, RawCall.source]
  have hinner : slice text c.found.inner.start c.found.inner.stop = some c.inner := by
    refine slice_append harguments ?_ rfl
    rw [Chars.size_append, ← hstart]
    rfl
  have hsource : slice text c.found.span.start c.found.span.stop = some c.source :=
    slice_append htext hstart rfl
  rw [readCall]
  refine Safe.after ?_ hinner
  have hread : c.read plain = Worksheet.shiftError c.innerStart (Argument.readAll plain c.inner) >>=
      fun arguments => pure ⟨String.ofList c.name, arguments, c.span, String.ofList c.source⟩ := by
    rw [RawCall.read]
    cases Worksheet.shiftError c.innerStart (Argument.readAll plain c.inner) <;> rfl
  rw [hread]
  refine Safe.bind ((readArguments_safe h c.inner).shiftError _) fun arguments => ?_
  refine Safe.after ?_ hsource
  exact safe_pure _

/-- The calls alone, without the text after each. -/
theorem map_segmentWith (plain : List Char → Except CallError Param) (style : CallStyle)
    (text : List Char) : (segmentWith plain style text).map (·.calls.map (·.1)) =
      style.scan none 0 text >>= fun s => s.calls.mapM fun (c, _) => c.read plain := by
  have hcalls : ∀ calls : List (RawCall × List Char),
      Except.map (List.map Prod.fst) (calls.mapM fun (c, after) => (c.read plain).map (·, after)) =
        calls.mapM fun (c, _) => c.read plain := by
    intro calls
    induction calls with
    | nil => rfl
    | cons c calls ih =>
      obtain ⟨c, after⟩ := c
      rw [List.mapM_cons, List.mapM_cons, ← ih]
      dsimp only
      cases c.read plain with
      | error e => rfl
      | ok call => cases calls.mapM fun (c, after) => (c.read plain).map (·, after) <;> rfl
  rw [segmentWith]
  cases style.scan none 0 text with
  | error e => rfl
  | ok s =>
    have hs := hcalls s.calls
    show Except.map _ ((s.calls.mapM fun (c, after) => (c.read plain).map (·, after)) >>= _) =
      s.calls.mapM fun (c, _) => c.read plain
    rw [← hs]
    cases s.calls.mapM fun (c, after) => (c.read plain).map (·, after) <;> rfl

theorem findCalls_safe (h : ∀ cs, Safe (param cs) (plain cs)) (style : CallStyle)
    (text : List Char) : Safe (findCalls param style text)
      ((segmentWith plain style text).map (·.calls.map (·.1))) := by
  rw [map_segmentWith]
  refine Safe.bind_map (scan_safe style text) fun s hs => ?_
  obtain ⟨htext, hlaid⟩ := CallStyle.laid_of_scan hs
  rw [Nat.zero_add] at hlaid
  rw [List.mapM_map]
  refine Safe.mapM fun c hc => ?_
  obtain ⟨left, right, hsplit, hspan⟩ := hlaid.exists_split (List.mem_map_of_mem hc)
  refine readCall_safe h (htext.trans hsplit) ?_
  exact congrArg Span.start hspan

/-- What a text that begins with an at sign stands for, given how it is cut at its calls. -/
def wholeCall (raw : List Char) : Segmented Call → Param
  | ⟨[], [(c, [])]⟩ => .call c
  | _ => .text (String.ofList raw)

theorem wholeCall_singleton (raw before after : List Char) (c : Call) :
    wholeCall raw ⟨before, [(c, after)]⟩ =
      if before = [] ∧ after = [] then .call c else .text (String.ofList raw) := by
  cases before <;> cases after <;> simp [wholeCall]

theorem wholeCall_of_length {raw : List Char} {cut : Segmented Call} (h : cut.calls.length ≠ 1) :
    wholeCall raw cut = .text (String.ofList raw) := by
  rw [wholeCall.eq_def]
  split
  · exact absurd rfl h
  · rfl

theorem readMarked_safe (h : ∀ cs, Safe (param cs) (plain cs)) (raw : List Char) :
    Safe (readMarked param raw) ((segmentWith plain .marked raw).map (wholeCall raw)) := by
  have hmap : ∀ x : Except CallError (Segmented Call),
      x.map (wholeCall raw) = x >>= fun cut => pure (wholeCall raw cut) := by
    intro x
    cases x <;> rfl
  rw [hmap]
  refine Safe.bind_map (findCalls_safe h .marked raw) fun cut hcut => ?_
  obtain ⟨htext, hlaid⟩ := laid_of_segmentWith hcut
  by_cases hone : cut.calls.length = 1
  · obtain ⟨before, calls⟩ := cut
    obtain ⟨⟨c, after⟩, rfl⟩ := List.length_eq_one_iff.1 hone
    have hplace : c.span = ⟨size before, size before + size c.source.toList⟩ := hlaid.1
    have hraw : size raw = size before + (size c.source.toList + size after) := by
      rw [htext, Placed.written, List.map_singleton, List.flatMap_singleton, Chars.size_append,
        Chars.size_append]
      rfl
    have hwhole : c.span = ⟨0, size raw⟩ ↔ before = [] ∧ after = [] := by
      rw [hplace, hraw, Span.mk.injEq]
      constructor
      · rintro ⟨hbefore, hafter⟩
        exact ⟨eq_nil_of_size_eq_zero hbefore, eq_nil_of_size_eq_zero (by omega)⟩
      · rintro ⟨rfl, rfl⟩
        exact ⟨rfl, rfl⟩
    rw [wholeCall_singleton]
    simp only [← hwhole]
    exact safe_pure (m := Except CallError) _
  · rw [wholeCall_of_length hone, if_neg (by simpa using hone)]
    exact safe_pure (m := Except CallError) _

theorem readItems_safe (h : ∀ cs, Safe (param cs) (plain cs)) (inner : List Char) :
    Safe (readItems param inner) (Param.readItems plain inner) := by
  rw [readItems, Param.readItems]
  split
  · exact safe_pure []
  · refine Safe.after ?_ (splitTopLevel_eq ',' inner)
    exact Safe.mapM fun piece _ => (h piece.text).shiftError _

theorem readEntry_safe (h : ∀ cs, Safe (param cs) (plain cs)) (piece : Piece) :
    Safe (readEntry param piece) (Param.readEntry plain piece) := by
  have hneedles : ∀ c ∈ [':', '='], c.utf8Size = 1 := fun c hc =>
    utf8Size_separator (by simpa using hc)
  have hcut := cutTopLevel_eq hneedles piece.text
  rw [readEntry, Param.readEntry]
  refine Safe.after ?_ hcut
  cases findTopLevel? [':', '='] piece.text with
  | none => exact safe_lift _
  | some found =>
    obtain ⟨before, rest⟩ := found
    refine Safe.after ?_ (unquote_eq before)
    exact ((h rest.tail).shiftError _).map _

theorem readEntries_safe (h : ∀ cs, Safe (param cs) (plain cs)) (inner : List Char) :
    Safe (readEntries param inner) (Param.readEntries plain inner) := by
  rw [readEntries, Param.readEntries]
  refine Safe.after ?_ (splitTopLevel_eq ',' inner)
  exact (Safe.mapM fun piece _ => readEntry_safe h piece).map _

end Reading

/-- No access fails in reading a value, however deep it is nested. -/
theorem readParam_safe (n : Nat) (cs : List Char) :
    Safe (readParam n cs) (Param.readWithin n cs) := by
  induction n generalizing cs with
  | zero => exact safe_lift _
  | succ n ih =>
    rw [readParam, Param.readWithin]
    refine Safe.after ?_ (unquote_eq _)
    cases Quoted.decode? (Chars.trim cs) with
    | some s => exact safe_pure _
    | none =>
      cases (Chars.trim cs).head? == some '@' with
      | true => exact readMarked_safe ih _
      | false =>
        cases Param.enclosed? '[' ']' (Chars.trim cs) with
        | some inner => exact (readItems_safe ih inner).map _
        | none =>
          cases Param.enclosed? '\x7b' '\x7d' (Chars.trim cs) with
          | some inner => exact (readEntries_safe ih inner).map _
          | none => exact safe_pure _

end Worksheet.Checked
