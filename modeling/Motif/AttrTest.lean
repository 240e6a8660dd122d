import Motif.Element
import Motif.Regex
import Motif.Unicode.Lowercase

/-!
# Tests of an attribute

A test asks about the value that an element has under a key. An absent value fails every test of
its content.

* `AttrTest`: equality, a regular expression or a numeric relation.
* `AttrTest.holds`: the test of a value.
* `Presence`: tests for the existence of an attribute and of a value.
-/

namespace Motif

/-- Numeric relations. -/
inductive Relation where
  | lt | le | gt | ge | eq | ne
deriving DecidableEq

namespace Relation

/-- The written form. -/
def symbol : Relation → String
  | lt => "<"
  | le => "<="
  | gt => ">"
  | ge => ">="
  | eq => "=="
  | ne => "!="

/-- All relations. -/
def all : List Relation := [lt, le, gt, ge, eq, ne]

/-- The relation written so. -/
def ofSymbol? (s : String) : Option Relation := all.find? (·.symbol == s)

/-- The relation holds between two numbers; of a NaN only `ne` does. -/
def holds : Relation → Binary64 → Binary64 → Bool
  | lt, x, y => x.lt y
  | le, x, y => x.le y
  | gt, x, y => y.lt x
  | ge, x, y => y.le x
  | eq, x, y => x.eq y
  | ne, x, y => !x.eq y

end Relation

/-- What a test requires of a value. -/
inductive AttrTest where
  /-- The textual form is `value`, or becomes `value` in lower case. -/
  | equals (value : String) (caseless : Bool)
  /-- The expression matches the textual form. -/
  | regex (r : Regex)
  /-- The numeric form is so related to the number. -/
  | compare (relation : Relation) (bound : Binary64)

namespace AttrTest

/-- Equality with a text; without regard to case the text is kept in lower case. -/
def equality (value : String) (caseless : Bool) : AttrTest :=
  equals (if caseless then Unicode.lowercase value else value) caseless

/-- The test of a value. -/
def holds (t : AttrTest) (v : Option Value) : Bool :=
  match t with
  | equals value caseless =>
    (v.bind Value.text?).any fun s => (if caseless then Unicode.lowercase s else s) == value
  | regex r => (v.bind Value.text?).any r.matchesIn
  | compare relation bound => (v.bind Value.number?).any (relation.holds · bound)

end AttrTest

/-- Tests for the presence of an attribute and of a value. -/
inductive Presence where
  | present
  | absent
  /-- Absent, or present without a value. -/
  | isNil
  /-- Present with a value. -/
  | notNil
deriving DecidableEq

namespace Presence

/-- The word for a test in patterns. -/
def keyword : Presence → String
  | .present => "EXISTS"
  | .absent => "NOT_EXISTS"
  | .isNil => "IS_NIL"
  | .notNil => "NOT_NIL"

/-- All tests for presence. -/
def all : List Presence := [.present, .absent, .isNil, .notNil]

/-- The test that a word stands for. -/
def ofKeyword? (s : String) : Option Presence := all.find? (·.keyword == s)

/-- The test of a value. -/
def holds : Presence → Option Value → Bool
  | .present, v => v.isSome
  | .absent, v => v.isNone
  | .isNil, v => v.all Value.isNil
  | .notNil, v => v.any (!·.isNil)

end Presence

end Motif
