import Motif.Unicode.CodeSet

/-!
# Classes as bytes

An automaton reads text byte by byte, so a step over a set of characters becomes steps over ranges
of bytes. The characters between two can be written as sequences of such ranges once they are cut
where the length of their encoding changes and where only some of the continuation bytes are taken.

* `ByteRange`: the bytes between two.
* `byteSequences`: a set of characters as sequences of byte ranges, in increasing order.
* `ByteTrie`: such sequences with their common beginnings put together.
-/

namespace Motif.Regex

open Unicode (CodeSet)

/-- The bytes between two, both included. -/
structure ByteRange where
  /-- The first byte. -/
  lo : UInt8
  /-- The last byte. -/
  hi : UInt8
deriving DecidableEq

/-- The encoding of a character, by its code point. -/
def encode (c : Nat) : List UInt8 := String.utf8EncodeChar (Char.ofNat c)

/-! ## Sequences of byte ranges -/

/-- Cuts an interval at the ends of blocks, and what lies between incomplete blocks by the next
larger ones. -/
def alignTo : List Nat → Nat → Nat → List (Nat × Nat)
  | [], lo, hi => [(lo, hi)]
  | size :: sizes, lo, hi =>
    if lo / size = hi / size then [(lo, hi)]
    else
      let start := (lo + size - 1) / size * size
      let stop := (hi + 1) / size * size
      (if lo < start then [(lo, start - 1)] else []) ++
        (if start < stop then alignTo sizes start (stop - 1) else []) ++
        (if stop ≤ hi then [(stop, hi)] else [])

/-- The code points with encodings of one length: the first, the last, and the sizes of the blocks
in which the last bytes differ. -/
def encodingLengths : List (Nat × Nat × List Nat) :=
  [(0, 0x7F, []), (0x80, 0x7FF, [0x40, 0x1000, 0x40000]), (0x800, 0xFFFF, [0x40, 0x1000, 0x40000]),
    (0x10000, 0x10FFFF, [0x40, 0x1000, 0x40000])]

/-- Cuts an interval into pieces whose encodings are the combinations of ranges of bytes. -/
def encodable (lo hi : Nat) : List (Nat × Nat) :=
  encodingLengths.flatMap fun (first, last, sizes) =>
    let lo := Nat.max lo first
    let hi := Nat.min hi last
    if lo ≤ hi then alignTo sizes lo hi else []

/-- A set of characters as sequences of byte ranges, in increasing order. -/
def byteSequences (s : CodeSet) : List (List ByteRange) :=
  (s.intervals.flatMap fun (lo, hi) => encodable lo hi).map fun (lo, hi) =>
    (encode lo).zipWith ByteRange.mk (encode hi)

/-! ## Common beginnings -/

/-- Sequences of byte ranges with their common beginnings put together, as the ranges that lead on
from one place. -/
inductive ByteTrie where
  /-- No further ranges. -/
  | done
  /-- A range at the end of a sequence, and further ranges. -/
  | last (r : ByteRange) (rest : ByteTrie)
  /-- A range that leads to another place, and further ranges. -/
  | next (r : ByteRange) (child rest : ByteTrie)

namespace ByteTrie

/-- Puts a sequence before the others. It shares the beginning of the first one. -/
def cons : List ByteRange → ByteTrie → ByteTrie
  | [], t => t
  | [r], t => last r t
  | r :: rs, t =>
    match t with
    | next r' child rest => if r = r' then next r (cons rs child) rest else next r (cons rs done) t
    | t => next r (cons rs done) t

/-- The trie of sequences in their order. -/
def ofSequences (seqs : List (List ByteRange)) : ByteTrie := seqs.foldr cons done

/-- The length of the first sequence. -/
def firstLength : ByteTrie → Nat
  | done => 0
  | last _ _ => 1
  | next _ child _ => firstLength child + 1

end ByteTrie

end Motif.Regex
