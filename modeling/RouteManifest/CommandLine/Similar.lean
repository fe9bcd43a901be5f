/-!
# Similar words

Who mistypes a word is told the one that was probably meant. Two words are the more similar the
more characters they share in about the same places and in the same order.
-/

namespace RouteManifest.CommandLine

/-- The place of the first free character `c` between `lo` and `hi`. -/
def freeMatch? (word : List Char) (taken : List Nat) (c : Char) (lo hi : Nat) : Option Nat :=
  (List.range hi).find? fun j => lo ≤ j && word[j]? = some c && !taken.contains j

/-- The pairs of places of shared characters, in the order of the first word; places may lie up to
`reach` apart. -/
def sharedPlaces (reach : Nat) (word : List Char) (i : Nat) (taken : List Nat) :
    List Char → List (Nat × Nat)
  | [] => []
  | c :: cs =>
    match freeMatch? word taken c (i - reach) (min word.length (i + reach + 1)) with
    | some j => (i, j) :: sharedPlaces reach word (i + 1) (j :: taken) cs
    | none => sharedPlaces reach word (i + 1) taken cs

/-- How similar two words are, as a fraction of three: numerator and denominator. -/
def similarity (a b : String) : Nat × Nat :=
  let a := a.toList
  let b := b.toList
  if a.isEmpty && b.isEmpty then (3, 1)
  else
    let reach := max a.length b.length / 2 - 1
    let pairs := sharedPlaces reach b 0 [] a
    let m := pairs.length
    let first := pairs.filterMap fun p => a[p.1]?
    let places := (pairs.map (·.2)).mergeSort (· ≤ ·)
    let second := places.filterMap fun j => b[j]?
    let moved := ((first.zip second).filter fun p => p.1 ≠ p.2).length / 2
    if m = 0 then (0, 1)
    else
      (m * b.length * m + m * a.length * m + (m - moved) * a.length * b.length,
        a.length * b.length * m)

def atMost (x y : Nat × Nat) : Bool := x.1 * y.2 ≤ y.1 * x.2

/-- The most similar of some words, the last one of equals, if one is similar at all: to more than
seven tenths. -/
def mostSimilar? (word : String) (words : List String) : Option String :=
  let close := words.filter fun w => !atMost (similarity word w) (21, 10)
  close.foldl (fun best w =>
    match best with
    | none => some w
    | some b => if atMost (similarity word b) (similarity word w) then some w else best) none

end RouteManifest.CommandLine
