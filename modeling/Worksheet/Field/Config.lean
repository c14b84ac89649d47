import Worksheet.Field.Basic
import Worksheet.Keyed

namespace Worksheet

/-- How the exercise of a block is to be presented. -/
structure Config where
  variation : Option String := none
  style : Option String := none
  /-- Time limit in seconds. -/
  time : Option Float := none
  limit : Option Float := none
  shuffle : Option Bool := none
  lives : Option Float := none
  /-- Fields with other keys, and values of the wrong kind. -/
  extra : Keyed FieldValue := []

namespace Config

/-- Keys that are configuration when they stand at the head of a block. -/
def keys : List String :=
  ["variation", "style", "time", "limit", "shuffle", "lives"]

/-- Keeps a value that its key has no use for. -/
def keep (c : Config) (f : Field) : Config :=
  { c with extra := c.extra.insert f.key f.value }

/-- Takes a number in, or keeps another value with a note. -/
def addNumber (c : Config) (f : Field) (set : Float → Config) : Config × List String :=
  match f.value.number? with
  | some n => (set n, [])
  | none => (c.keep f, [s!"config '{f.key}' expects a number, got '" ++ f.value.render ++ "'"])

/-- Takes a field in. -/
def add (c : Config) (f : Field) : Config × List String :=
  match f.key with
  | "variation" => ({ c with variation := some (Text.asciiLower f.value.render) }, [])
  | "style" => ({ c with style := some f.value.render }, [])
  | "time" => c.addNumber f fun n => { c with time := some n }
  | "limit" => c.addNumber f fun n => { c with limit := some n }
  | "lives" => c.addNumber f fun n => { c with lives := some n }
  | "shuffle" =>
    match f.value.bool? with
    | some b => ({ c with shuffle := some b }, [])
    | none =>
      (c.keep f, ["config 'shuffle' expects true or false, got '" ++ f.value.render ++ "'"])
  | _ => (c.keep f, [])

/-- The configuration and notes about values of the wrong kind. -/
def ofFields (fields : List Field) : Config × List String :=
  fields.foldl (fun (c, notes) f =>
    let (next, more) := c.add f
    (next, notes ++ more)) ({}, [])

end Config

end Worksheet
