import Worksheet.Eval.Material
import Worksheet.Proofs.Checked.Functions

namespace Worksheet.Checked

open Chars (size eq_nil_of_size_eq_zero)

variable {σ α β : Type}

/-- Reads a line that begins with the word `@var`. -/
def parseDefinition (line : String) : Option (OptionT (Except CallError) Definition) :=
  match Chars.stripStart? "@var".toList (Chars.trim line.toList) with
  | none => none
  | some rest =>
    if !rest.head?.any Chars.isBlank then none
    else
      let whole : Span := ⟨0, Text.size line⟩
      some <| match Chars.splitOnce '=' rest with
      | none => OptionT.lift (.error ⟨.definitionWithoutValue, whole⟩)
      | some (before, after) =>
        let name := Chars.trim before
        let text := Chars.trim after
        if !isIdentifier name then
          OptionT.lift (.error ⟨.badVariableName (String.ofList name), whole⟩)
        else
          (fun
            | .call c => ⟨String.ofList name, .call c⟩
            | _ => ⟨String.ofList name, .literal (String.ofList text)⟩) <$>
          readParam (Param.maxNesting + 1) text

/-- A remark that makes up a whole line. -/
def remark? (trimmed : String) :
    OptionT (Except CallError) (Option ((String → LineEffect) × String)) :=
  let effect? : Option (String → LineEffect) :=
    if Text.startsWith trimmed "HINT(" then some .hint
    else if Text.startsWith trimmed "EXPLANATION(" then some .explanation
    else none
  match effect? with
  | none => pure none
  | some effect => do
    match ← findBare ["HINT", "EXPLANATION"] trimmed with
    | [] => return none
    | call :: _ =>
      if call.span = ⟨0, Text.size trimmed⟩ then
        let stop ← access (sub (Text.size trimmed) 1)
        let inner ← access (slice trimmed.toList (Text.size call.name + 1) stop)
        let text := (← access (unquote inner)).getD (Chars.trim inner)
        return some (effect, String.ofList text)
      else return none

/-- The value of a text. One that is no value stands for itself. -/
def literal (text : String) : Option Value :=
  match (readParam (Param.maxNesting + 1) text.toList).run with
  | .ok found => found.map Value.ofParam
  | .error _ => some (.text text)

namespace Context

variable (ctx : Context σ)

def define (d : Definition) : OptionT (Eval σ) Unit :=
  match d.value with
  | .call c => steady (Eval.modifyTable (·.defer d.name c))
  | .literal raw => do
    let value ← access (literal (← ctx.resolve raw))
    steady (Eval.modifyTable (·.define d.name value))

def readContent (number : Nat) (trimmed : String) : OptionT (Eval σ) LineEffect := do
  let text ← ctx.resolve trimmed
  let (rest, markers) ← ofCall (extract text)
  let rest := Text.trim rest
  if rest.isEmpty && markers.isEmpty then return .nothing
  else return .content ⟨rest, markers, number⟩

def readLine (line : SourceLine) : OptionT (Eval σ) LineEffect := do
  let trimmed := Text.trim line.text
  if trimmed.isEmpty || Text.isComment trimmed then return .nothing
  else match parseDefinition trimmed with
    | some definition => do
      ctx.define (← ofCall definition)
      return .nothing
    | none => do
      match ← ofCall (remark? trimmed) with
      | some (effect, text) => return effect (← ctx.resolve text)
      | none => ctx.readContent line.number trimmed

/-- Evaluates the lines of a block up to the first that fails. -/
def readLines (found : Material) :
    List SourceLine → World σ × Nat → Option (Except LineError Material) × World σ × Nat
  | [], s => (some (.ok found), s)
  | line :: rest, s =>
    match (ctx.readLine line).run.run.run s with
    | (.error e, s) => (some (.error ⟨line.number, line.span, e⟩), s)
    | (.ok none, s) => (none, s)
    | (.ok (some effect), s) => readLines (found.add effect) rest s

/-- Evaluates the content of a block with no variables defined before. -/
def material (lines : List SourceLine) : OptionT (StateM σ) (Except LineError Material) :=
  OptionT.mk fun random =>
    let (result, s) := ctx.readLines {} lines (⟨{}, random⟩, 0)
    (result, s.1.random)

end Context

theorem parseDefinition_safe (line : String) :
    Option.Rel Safe (parseDefinition line) (Definition.parse? line) := by
  rw [parseDefinition, Definition.parse?]
  cases Chars.stripStart? "@var".toList (Chars.trim line.toList) with
  | none => exact .none
  | some rest =>
    dsimp only
    split
    · exact .none
    · apply Option.Rel.some
      cases Chars.splitOnce '=' rest with
      | none => exact safe_lift _
      | some parts =>
        obtain ⟨before, after⟩ := parts
        dsimp only
        split
        · exact safe_lift _
        · exact (readParam_safe _ _).map _

/-- A first call that makes up the text is the text. -/
theorem source_of_whole {text before after : List Char} {call : Call}
    {rest : List (Call × List Char)}
    (htext : text = before ++ Placed.written (((call, after) :: rest).map Call.placed))
    (hlaid : Placed.Laid (size before) (((call, after) :: rest).map Call.placed))
    (hwhole : call.span = ⟨0, size text⟩) : text = call.source.toList := by
  have hplace : call.span = ⟨size before, size before + size call.source.toList⟩ := hlaid.1
  obtain ⟨hstart, hstop⟩ := Span.mk.inj (hplace.symm.trans hwhole)
  obtain rfl := eq_nil_of_size_eq_zero hstart
  have hsplit : text = call.source.toList ++ (after ++ Placed.written (rest.map Call.placed)) := by
    rw [htext, List.map_cons, Placed.written_cons]
    rfl
  have hsize : size text = size call.source.toList +
      size (after ++ Placed.written (rest.map Call.placed)) := by
    rw [← Chars.size_append, ← hsplit]
  have hrest : size (after ++ Placed.written (rest.map Call.placed)) = 0 := by
    rw [Chars.size_nil] at hstop
    omega
  rw [eq_nil_of_size_eq_zero hrest, List.append_nil] at hsplit
  exact hsplit

/-- The offsets between which the arguments stand in a text that is a call. -/
theorem slice_arguments {text name inner : List Char}
    (htext : text = name ++ '(' :: (inner ++ [')'])) :
    sub (size text) 1 = some (size name + 1 + size inner) ∧
      slice text (size name + 1) (size name + 1 + size inner) = some inner ∧
      (text.drop (name.length + 1)).dropLast = inner := by
  have hparen : '('.utf8Size = 1 ∧ ')'.utf8Size = 1 := by decide
  have hopened : size (name ++ ['(']) = size name + 1 := by
    rw [Chars.size_append, Chars.size_cons, hparen.1]
    rfl
  have hinside : text = (name ++ ['(']) ++ inner ++ [')'] := by simp [htext]
  have hsize : size text = size name + 1 + size inner + 1 := by
    rw [hinside, Chars.size_append, Chars.size_append, hopened, Chars.size_cons, hparen.2]
    rfl
  refine ⟨?_, ?_, ?_⟩
  · rw [hsize, sub_of_le (by omega)]
    rfl
  · exact slice_append hinside hopened.symm rfl
  · have hlength : name.length + 1 = (name ++ ['(']).length := by simp
    rw [hinside, List.append_assoc, hlength, List.drop_left, List.dropLast_concat]

/-- A remark that makes up a line has its name and two parentheses around its text. -/
theorem remark?_safe (trimmed : String) : Safe (remark? trimmed) (Worksheet.remark? trimmed) := by
  rw [remark?, Worksheet.remark?]
  dsimp only
  generalize (if Text.startsWith trimmed "HINT(" = true then some LineEffect.hint
    else if Text.startsWith trimmed "EXPLANATION(" = true then some LineEffect.explanation
    else none) = effect?
  cases effect? with
  | none => exact safe_lift (Except.ok none)
  | some effect =>
    have hcalls := findBare_safe ["HINT", "EXPLANATION"] trimmed
    have hmap : ∀ {β : Type} (x : Except CallError (Segmented Call)) (f : List Call → β),
        (x.map (·.calls.map (·.1))).map f = x >>= fun cut => pure (f (cut.calls.map (·.1))) := by
      intro β x f
      cases x <;> rfl
    rw [Call.findBare] at hcalls ⊢
    dsimp only
    rw [hmap]
    refine Safe.bind_map hcalls fun cut hcut => ?_
    obtain ⟨htext, hlaid⟩ := laid_of_segmentWith hcut
    have hsources := exists_source_of_segmentWith hcut
    obtain ⟨before, calls⟩ := cut
    cases calls with
    | nil => exact safe_lift (Except.ok none)
    | cons c rest =>
      obtain ⟨call, after⟩ := c
      show Safe (if call.span = ⟨0, Text.size trimmed⟩ then _ else _)
        (pure (if call.span = ⟨0, Text.size trimmed⟩ then _ else _))
      by_cases hwhole : call.span = ⟨0, Text.size trimmed⟩
      · have htext : trimmed.toList = call.source.toList := source_of_whole htext hlaid hwhole
        obtain ⟨inner, hsource⟩ := hsources (call, after) (by simp)
        obtain ⟨hstop, hslice, hdrop⟩ := slice_arguments (htext.trans hsource)
        rw [String.length_toList, htext] at hdrop
        rw [if_pos hwhole, if_pos hwhole, hdrop]
        refine Safe.after ?_ hstop
        refine Safe.after ?_ hslice
        refine Safe.after ?_ (unquote_eq inner)
        exact safe_lift (Except.ok _)
      · rw [if_neg hwhole, if_neg hwhole]
        exact safe_lift (Except.ok none)

theorem literal_eq (text : String) : literal text = some (match Param.parse text with
    | .ok p => Value.ofParam p
    | .error _ => .text text) := by
  have hrun : (readParam (Param.maxNesting + 1) text.toList).run = some <$> Param.parse text :=
    readParam_safe _ _
  rw [literal, hrun]
  cases Param.parse text <;> rfl

namespace Context.SafeAt

variable {depth : Nat} {ctx : Context σ} {plain : Worksheet.Context σ}

theorem define (h : ctx.SafeAt depth plain) (d : Definition) :
    Checked.SafeAt depth (ctx.define d) (plain.define d) := by
  rw [Context.define, Worksheet.Context.define]
  cases d.value with
  | call c => exact .steady _
  | literal raw =>
    refine (h.resolve raw).next fun text => ?_
    exact SafeAt.after (.steady _) (literal_eq text)

theorem readContent (h : ctx.SafeAt depth plain) (number : Nat) (trimmed : String) :
    Checked.SafeAt depth (ctx.readContent number trimmed) (plain.readContent number trimmed) := by
  refine (h.resolve trimmed).next fun text => ?_
  refine (SafeAt.ofCall (extract_safe text)).next fun taken => ?_
  obtain ⟨rest, markers⟩ := taken
  dsimp only
  split
  · exact .ok _
  · exact .ok _

theorem readLine (h : ctx.SafeAt depth plain) (line : SourceLine) :
    Checked.SafeAt depth (ctx.readLine line) (plain.readLine line) := by
  have hdefinition := parseDefinition_safe (Text.trim line.text)
  rw [Context.readLine, Worksheet.Context.readLine]
  split
  · exact .ok _
  · generalize parseDefinition (Text.trim line.text) = c at hdefinition ⊢
    generalize Definition.parse? (Text.trim line.text) = x at hdefinition ⊢
    cases hdefinition with
    | some hd =>
      refine (SafeAt.ofCall hd).next fun d => ?_
      exact (h.define d).next fun _ => .ok _
    | none =>
      refine (SafeAt.ofCall (remark?_safe _)).next fun found => ?_
      cases found with
      | none => exact h.readContent _ _
      | some remark => exact (h.resolve _).next fun text => .ok _

theorem readLines (h : ctx.SafeAt depth plain) (found : Material) (lines : List SourceLine)
    (w : World σ) : ctx.readLines found lines (w, depth) =
      (some (plain.readLines found lines w).1, (plain.readLines found lines w).2, depth) := by
  induction lines generalizing found w with
  | nil => rfl
  | cons line rest ih =>
    rw [Context.readLines, Worksheet.Context.readLines, h.readLine line w]
    cases (plain.readLine line).run.run w with
    | mk result after =>
      cases result with
      | error e => rfl
      | ok effect => exact ih (found.add effect) after

theorem material (h : ctx.SafeAt 0 plain) (lines : List SourceLine) :
    Safe (ctx.material lines)
      (plain.material lines : StateM σ (Except LineError Material)) := by
  rw [safe_iff]
  intro random
  show ((ctx.readLines {} lines (⟨{}, random⟩, 0)).1,
    (ctx.readLines {} lines (⟨{}, random⟩, 0)).2.1.random) = _
  rw [h.readLines]
  rfl

end Context.SafeAt

end Worksheet.Checked
