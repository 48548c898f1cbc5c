import SchemaCut.EntitySet
import SchemaCut.Text.Blank

/-!
# Reference tokens

One definition points at another through a string of the form

    document#/section/name

where `document` names a file and is ignored, `section` is one of the three section names, and
`name` is the name of the entity in it. Neither part holds white space, `document` holds no `#`,
and `name` is not empty. A slash inside a name may be written `%2F` or `%2f`. Every other string is
ordinary text.

`Reference.decode?` reads a token; `Reference.unescape` gives the name that a written name stands
for.
-/

namespace SchemaCut.Reference

/-- Replaces every `%2` followed by the given letter with a slash, from left to right. -/
def unescapeLetter (letter : Char) : List Char → List Char
  | [] => []
  | '%' :: '2' :: c :: cs =>
    if c = letter then '/' :: unescapeLetter letter cs
    else '%' :: unescapeLetter letter ('2' :: c :: cs)
  | c :: cs => c :: unescapeLetter letter cs

/-- The name that a written name stands for: first every `%2F` and then every `%2f` is a slash. -/
def unescape (raw : List Char) : List Char :=
  unescapeLetter 'f' (unescapeLetter 'F' raw)

/-- What follows the document part of a token: the text after its `#/`. -/
def afterDocument? (cs : List Char) : Option (List Char) :=
  match cs.dropWhile fun c => !(c == '#' || Text.isBlank c) with
  | '#' :: '/' :: rest => some rest
  | _ => none

/-- The entity that the section and name part of a token points at. -/
def target? (cs : List Char) : Option Entity :=
  match cs.dropWhile (· ≠ '/') with
  | '/' :: raw =>
    if raw.isEmpty || raw.any Text.isBlank then none
    else (Kind.ofSection? (String.ofList (cs.takeWhile (· ≠ '/')))).map fun k =>
      ⟨k, String.ofList (unescape raw)⟩
  | _ => none

/-- The entity that a string points at, if the string is a reference token. -/
def decode? (token : String) : Option Entity :=
  (afterDocument? token.toList).bind target?

example : decode? "#/types/aws:s3%2FGrant:Grant" = some ⟨.type, "aws:s3/Grant:Grant"⟩ := by
  decide +kernel

example : decode? "/aws/v5/schema.json#/resources/a:b:C" = some ⟨.resource, "a:b:C"⟩ := by
  decide +kernel

example : decode? "pulumi.json#/Archive" = none := by decide +kernel

end SchemaCut.Reference
