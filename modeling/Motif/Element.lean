import Motif.Value

/-!
# Elements

A searched sequence consists of elements. All that a pattern sees of an element is its text and
its attributes.

* `Element`: an element, as patterns see it.
* `AttrKey`: which attribute a test reads; the text itself is one of them.
* `Token`: a plain element, a text with textual attributes.
* `Token.ofTagged`, `tokensOfText`: tokens from `word/TAG` items between blanks.
-/

namespace Motif

/-- An element of a searched sequence. -/
structure Element where
  /-- The text of the element. -/
  text : String
  /-- The value of an attribute; `none` means that the element does not have it. -/
  attr : String → Option Value

/-- What a test reads of an element. -/
inductive AttrKey where
  /-- The text of the element. -/
  | text
  /-- The attribute of that name. -/
  | named (name : String)
deriving DecidableEq

/-- The value that a test reads. -/
def AttrKey.lookup : AttrKey → Element → Option Value
  | text, e => some (.text e.text)
  | named name, e => e.attr name

/-- A text with textual attributes, in increasing order of their names. -/
structure Token where
  /-- The text of the token. -/
  text : String
  /-- Names and values, by name. -/
  attributes : List (String × String) := []

namespace Token

/-- Inserts a pair by its name, in place of an earlier pair of that name. -/
def insertAttribute (name value : String) : List (String × String) → List (String × String)
  | [] => [(name, value)]
  | (n, v) :: rest =>
    if name < n then (name, value) :: (n, v) :: rest
    else if name == n then (name, value) :: rest
    else (n, v) :: insertAttribute name value rest

/-- Sets an attribute. -/
def set (t : Token) (name value : String) : Token :=
  { t with attributes := insertAttribute name value t.attributes }

/-- The value of an attribute. The attribute `word` is the text unless it was set. -/
def attr (t : Token) (name : String) : Option Value :=
  match t.attributes.lookup name with
  | some v => some (.text v)
  | none => if name == "word" then some (.text t.text) else none

/-- A token as an element. -/
def toElement (t : Token) : Element := ⟨t.text, t.attr⟩

/-- Splits a text at its last slash; both sides are given backwards. -/
def splitLastSlash : List Char → List Char → Option (List Char × List Char)
  | _, [] => none
  | tag, '/' :: word => some (word, tag)
  | tag, c :: rest => splitLastSlash (c :: tag) rest

/-- The part after the last slash becomes the attribute `tag`, unless one of the sides is empty. -/
def ofTagged (item : String) : Token :=
  match splitLastSlash [] item.toList.reverse with
  | some (word@(_ :: _), tag@(_ :: _)) =>
    { text := String.ofList word.reverse, attributes := [("tag", String.ofList tag)] }
  | _ => { text := item }

end Token

/-- The tokens of a text: its items between blanks, each with an optional tag. -/
def tokensOfText (s : String) : List Token := (words s).map Token.ofTagged

end Motif
