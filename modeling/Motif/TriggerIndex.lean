import Motif.Expr

/-!
# The trigger index

Patterns that are searched for together are indexed once by their trigger words, so that the words
of a sequence tell which of them have to be searched for. Patterns go by their numbers.

* `TriggerIndex`: patterns by their trigger words.
* `TriggerIndex.ofTriggers`: the index of patterns with the given trigger words.
* `TriggerIndex.active`: the patterns that have to be searched for, in increasing order.
-/

namespace Motif

/-- Patterns by their trigger words. -/
structure TriggerIndex where
  /-- The patterns without trigger words. -/
  alwaysOn : List Nat := []
  /-- Each word with the patterns that have it. The order of the words does not matter. -/
  postings : List (String × List Nat) := []

namespace TriggerIndex

/-- Adds a pattern to those that have a word, once. -/
def post (id : Nat) (word : String) : List (String × List Nat) → List (String × List Nat)
  | [] => [(word, [id])]
  | (w, ids) :: rest =>
    if w = word then (w, if ids.getLast? = some id then ids else ids ++ [id]) :: rest
    else (w, ids) :: post id word rest

/-- Adds a pattern with its trigger words. -/
def add (ix : TriggerIndex) (id : Nat) : Option (List String) → TriggerIndex
  | none | some [] => { ix with alwaysOn := ix.alwaysOn ++ [id] }
  | some ws => { ix with postings := ws.foldl (fun ps w => post id w ps) ix.postings }

/-- The index of patterns with the given trigger words. -/
def ofTriggers (triggers : List (Option (List String))) : TriggerIndex :=
  triggers.zipIdx.foldl (fun ix (ws, id) => ix.add id ws) {}

/-- Keeps one of several equal numbers in a row. -/
def squeeze : List Nat → List Nat
  | i :: j :: is => if i = j then squeeze (j :: is) else i :: squeeze (j :: is)
  | is => is

/-- The patterns that have no trigger words or one that is among the texts, in increasing order. -/
def active (ix : TriggerIndex) (texts : List String) : List Nat :=
  let posted := ix.postings.flatMap fun (w, ids) => if texts.contains w then ids else []
  squeeze (ix.alwaysOn ++ posted).mergeSort

end TriggerIndex

end Motif
