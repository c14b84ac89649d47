import Worksheet.Chars.Basic
import Worksheet.Chars.Digits

namespace Worksheet.Markdown

/-- An ASCII character that is neither a letter, a digit nor white space. -/
def isPunctuation (c : Char) : Bool :=
  33 ≤ c.toNat && c.toNat ≤ 126 && !c.isAlphanum

/-- The references by name to white space. -/
def spaceNames : List (String × List Char) :=
  [("Tab", ['\t']), ("NewLine", ['\n']), ("nbsp", ['\u00a0']), ("NonBreakingSpace", ['\u00a0']),
    ("ensp", ['\u2002']), ("emsp", ['\u2003']), ("emsp13", ['\u2004']), ("emsp14", ['\u2005']),
    ("numsp", ['\u2007']), ("puncsp", ['\u2008']), ("thinsp", ['\u2009']),
    ("ThinSpace", ['\u2009']), ("hairsp", ['\u200a']), ("VeryThinSpace", ['\u200a']),
    ("MediumSpace", ['\u205f']), ("ThickSpace", ['\u205f', '\u200a'])]

/-- The character of a code point. The replacement character stands for zero. -/
def scalar? (base limit : Nat) (digits : List Char) : Option (List Char) := do
  if digits.isEmpty || limit < digits.length then none
  let n ← Chars.number? base digits
  if n == 0 then some ['\ufffd'] else if n.isValidChar then some [Char.ofNat n] else none

/-- What a reference stands for, given the text between the ampersand and the semicolon: a code
point, or white space by name. -/
def referenced? : List Char → Option (List Char)
  | '#' :: 'x' :: digits => scalar? 16 6 digits
  | '#' :: 'X' :: digits => scalar? 16 6 digits
  | '#' :: digits => scalar? 10 7 digits
  | name => spaceNames.lookup (String.ofList name)

/-- What the reference at the start of a text stands for, the ampersand left out, and the text after
it. -/
def reference? (cs : List Char) : Option (List Char × List Char) :=
  (Chars.splitOnce ';' cs).bind fun (name, after) => (referenced? name).map (·, after)

theorem length_reference?_le {cs : List Char} {r : List Char × List Char}
    (h : reference? cs = some r) : r.2.length ≤ cs.length := by
  obtain ⟨⟨name, after⟩, hs, hr⟩ := Option.bind_eq_some_iff.1 h
  obtain ⟨text, _, rfl⟩ := Option.map_eq_some_iff.1 hr
  change after.length ≤ cs.length
  have hl := congrArg List.length (Chars.splitOnce_append hs)
  simp only [List.length_append, List.length_cons] at hl
  omega

/-- The text that is meant by the text after a fence. Carriage returns are no part of it. -/
def unescape : List Char → List Char
  | [] => []
  | '\r' :: rest => unescape rest
  | '\\' :: c :: rest =>
    if isPunctuation c then c :: unescape rest else '\\' :: unescape (c :: rest)
  | '&' :: rest =>
    match h : reference? rest with
    | none => '&' :: unescape rest
    | some r =>
      have : r.2.length ≤ rest.length := length_reference?_le h
      r.1 ++ unescape r.2
  | c :: rest => c :: unescape rest
termination_by cs => cs.length

end Worksheet.Markdown
