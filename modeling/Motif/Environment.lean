import Motif.Pattern

/-!
# Environments

An environment gives meaning to the names in a pattern: attributes, variables for sub-patterns,
functions over elements and actions.

* `Binding`: what a variable stands for, the text of a pattern or a compiled pattern.
* `Environment`: the bindings, and how bare literals are tested.
-/

namespace Motif

/-- What a variable stands for. -/
inductive Binding where
  /-- The text of a pattern, read in place in the environment of the reference. -/
  | source (text : String)
  /-- A compiled pattern, whose expression is copied. -/
  | compiled (p : Pattern)

/-- The meaning of names in patterns. -/
structure Environment where
  /-- Keys behind the names of attributes; other names are keys themselves. -/
  attributes : List (String × AttrKey) := []
  /-- Variables. -/
  patterns : List (String × Binding) := []
  /-- Functions over elements. -/
  functions : List (String × NodePattern) := []
  /-- The names of actions. -/
  actions : List String := []
  /-- What literals outside brackets test. -/
  defaultKey : AttrKey := .text
  /-- Equality and regular expressions do not regard case. -/
  caseless : Bool := false
  /-- The engine for regular expressions. -/
  engine : Regex.Engine := .standard
  /-- The order in which sets of names are gone through. -/
  order : NameOrder := .declared

namespace Environment

/-- The key behind the name of an attribute. -/
def key (env : Environment) (name : String) : AttrKey :=
  (env.attributes.lookup name).getD (.named name)

/-- What a variable stands for. -/
def pattern? (env : Environment) (name : String) : Option Binding := env.patterns.lookup name

/-- The function of a name. -/
def function? (env : Environment) (name : String) : Option NodePattern :=
  env.functions.lookup name

/-- The test that a literal text stands for. -/
def equality (env : Environment) (text : String) : AttrTest := .equality text env.caseless

/-- The test that a regular expression stands for. -/
def regex? (env : Environment) (source : String) : Option Regex :=
  Regex.wholeText? source env.caseless env.engine

end Environment

end Motif
