import Worksheet.Engine
import Worksheet.Proofs.Checked.Sections

namespace Worksheet.Checked

open Chars (size)

section Values

/-- The items between top-level commas, without the empty ones. -/
def listItems (cs : List Char) : Option (List String) := do
  let items ← (← splitTopLevel ',' cs).mapM fun piece => do
    return (← unquote piece.text).getD piece.text
  return (items.filter (!·.isEmpty)).map String.ofList

/-- The value that a text stands for. -/
def fieldValue (cs : List Char) : Option FieldValue := do
  let raw := Chars.trim cs
  let lower := Text.asciiLower (String.ofList raw)
  match ← unquote raw with
  | some s => return .text (String.ofList s)
  | none =>
    match if Decimal.isLiteral raw then Decimal.read? raw else none with
    | some n => return .number n
    | none =>
      if lower == "true" then return .bool true
      else if lower == "false" then return .bool false
      else match raw with
        | '[' :: rest =>
          match Chars.stripLast? ']' rest with
          | some inner => return .list (← listItems inner)
          | none => return .text (String.ofList raw)
        | _ => return .text (String.ofList raw)

def toItems : FieldValue → Option (List String)
  | .list items => some items
  | .text s => listItems s.toList
  | other => some [other.render]

theorem listItems_eq (cs : List Char) : listItems cs = some (Worksheet.listItems cs) := by
  have hitems : ((Worksheet.splitTopLevel ',' cs).mapM fun piece => do
      return (← unquote piece.text).getD piece.text) =
        some ((Worksheet.splitTopLevel ',' cs).map fun piece =>
          (Quoted.decode? piece.text).getD piece.text) :=
    mapM_eq_some fun piece _ => by rw [unquote_eq]; rfl
  rw [listItems, splitTopLevel_eq, Option.bind_eq_bind, Option.bind_some, hitems]
  rfl

theorem fieldValue_eq (cs : List Char) : fieldValue cs = some (FieldValue.ofChars cs) := by
  rw [fieldValue, FieldValue.ofChars, unquote_eq]
  simp only [listItems_eq, Option.bind_eq_bind, Option.bind_some]
  cases Quoted.decode? (Chars.trim cs) with
  | some s => rfl
  | none =>
    cases if Decimal.isLiteral (Chars.trim cs) then Decimal.read? (Chars.trim cs) else none with
    | some n => rfl
    | none =>
      dsimp only
      cases Text.asciiLower (String.ofList (Chars.trim cs)) == "true" with
      | true => rfl
      | false =>
        cases Text.asciiLower (String.ofList (Chars.trim cs)) == "false" with
        | true => rfl
        | false =>
          cases Chars.trim cs with
          | nil => rfl
          | cons c rest =>
            rw [if_neg Bool.false_ne_true, if_neg Bool.false_ne_true, if_neg Bool.false_ne_true,
              if_neg Bool.false_ne_true]
            by_cases hc : c = '['
            · subst hc
              cases hstrip : Chars.stripLast? ']' rest with
              | none => simp [hstrip]
              | some inner => simp [hstrip]
            · simp [hc]

theorem toItems_eq (v : FieldValue) : toItems v = some v.toItems := by
  cases v with
  | text s => exact listItems_eq s.toList
  | bool | number | list => rfl

end Values

section Fields

/-- A piece between top-level commas. -/
def fieldEntry (cs : List Char) : Option Field.Entry :=
  match findTopLevel ['=', ':'] cs with
  | none => some (.loose cs)
  | some place => do
    let key := (Chars.trim (← upTo cs place)).map Char.toLower
    if Field.isKey key then
      return .keyed (String.ofList key) (Chars.trim (← onward cs (place + 1)))
    else return .loose cs

/-- The fields of a line and the loose pieces before the first of them. -/
def lineFields (line : List Char) : Option (List Field × List String) := do
  let pieces := (← splitTopLevel ',' line).filter (!·.text.isEmpty)
  let found ← pieces.mapM fun piece => fieldEntry piece.text
  let fields ← (Field.Entry.gather (found.dropWhile Field.Entry.isLoose)).2.mapM
    fun (key, value) => do return (⟨key, ← fieldValue value⟩ : Field)
  let loose := (found.takeWhile Field.Entry.isLoose).filterMap fun
    | .loose text => some (String.ofList text)
    | .keyed .. => none
  return (fields, loose)

/-- The fields of a text and the pieces that belong to no field. -/
def parseFields (text : String) : Option (List Field × List String) := do
  let found ← (Chars.lines text.toList).mapM lineFields
  return (found.flatMap (·.1), found.flatMap (·.2))

/-- Takes a field in. -/
def addField (m : Metadata) (f : Field) : Option Metadata :=
  match f.key with
  | "tags" => do return { m with tags := m.tags ++ (← toItems f.value) }
  | "hints" | "hint" => do return { m with hints := m.hints ++ (← toItems f.value) }
  | _ => some (m.add f)

/-- Takes fields in one after the other. -/
def addFields (m : Metadata) : List Field → Option Metadata
  | [] => some m
  | f :: rest => do addFields (← addField m f) rest

/-- Reads the fields of a block. -/
def readHeader (s : Sections) : Option Engine.Header := do
  let (fields, malformed) ← parseFields s.metadata
  let metadata ← addFields {} fields
  let (configFields, malformedConfig) ← parseFields s.config
  let (config, notes) := Config.ofFields configFields
  return ⟨metadata, config,
    (malformed.map fun entry => s!"ignoring metadata entry '{entry}'") ++ metadata.notes ++
      (malformedConfig.map fun entry => s!"ignoring config entry '{entry}'") ++ notes⟩

theorem fieldEntry_eq (cs : List Char) : fieldEntry cs = some (Field.Entry.ofChars cs) := by
  have hneedles : ∀ c ∈ ['=', ':'], c.utf8Size = 1 := fun c hc =>
    utf8Size_separator (Or.symm (by simpa using hc))
  have hcut := cutTopLevel_eq hneedles cs
  rw [cutTopLevel] at hcut
  rw [fieldEntry, Field.Entry.ofChars]
  cases hplace : findTopLevel ['=', ':'] cs with
  | none =>
    rw [hplace] at hcut
    have hnone := Option.map_eq_none_iff.1 (Option.some.inj hcut).symm
    rw [hnone]
  | some place =>
    rw [hplace] at hcut
    obtain ⟨key, hkey, hcut⟩ := Option.bind_eq_some_iff.1 hcut
    obtain ⟨value, hvalue, hcut⟩ := Option.bind_eq_some_iff.1 hcut
    obtain ⟨⟨before, rest⟩, hfound, hparts⟩ := Option.map_eq_some_iff.1 (Option.some.inj hcut).symm
    obtain ⟨rfl, rfl⟩ := Prod.mk.inj hparts
    rw [hfound]
    simp only [hkey, hvalue, Option.bind_eq_bind, Option.bind_some]
    split <;> rfl

theorem lineFields_eq (line : List Char) : lineFields line = some (Field.ofLine line) := by
  rw [lineFields, splitTopLevel_eq, Option.bind_eq_bind, Option.bind_some]
  dsimp only
  rw [mapM_eq_some fun piece _ => fieldEntry_eq piece.text]
  rw [Option.bind_eq_bind, Option.bind_some]
  rw [mapM_eq_some (g := fun kv : String × List Char => (⟨kv.1, .ofChars kv.2⟩ : Field))]
  · rfl
  · intro kv _
    rw [fieldValue_eq]
    rfl

theorem parseFields_eq (text : String) : parseFields text = some (Field.parseAll text) := by
  rw [parseFields, mapM_eq_some fun line _ => lineFields_eq line]
  rfl

theorem addField_eq (m : Metadata) (f : Field) : addField m f = some (m.add f) := by
  obtain ⟨key, value⟩ := f
  rw [addField.eq_def]
  dsimp only
  rw [toItems_eq]
  split <;> rfl

theorem addFields_eq (m : Metadata) (fields : List Field) :
    addFields m fields = some (fields.foldl Metadata.add m) := by
  induction fields generalizing m with
  | nil => rfl
  | cons f rest ih => rw [addFields, addField_eq, Option.bind_eq_bind, Option.bind_some, ih]; rfl

theorem readHeader_eq (s : Sections) : readHeader s = some (Engine.readHeader s) := by
  rw [readHeader, parseFields_eq, parseFields_eq]
  simp only [Option.bind_eq_bind, Option.bind_some, addFields_eq]
  rfl

end Fields

end Worksheet.Checked
