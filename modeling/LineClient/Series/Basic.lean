import LineClient.Duration

/-!
# Series of samples

A series keeps the samples in the order of their arrival, either all of them or the most recent
ones. A limit of zero counts as one, so the latest sample is always kept.

* `Sample`, `Series`;
* `Series.append`, `Series.toList`, `Series.latest?`, `Series.length`.
-/

namespace LineClient

/-- A value and the moment it was recorded. -/
structure Sample where
  time : Duration
  value : Binary64
  deriving DecidableEq, Repr, Inhabited

/-- The samples kept so far, the newest first, and how many may be kept. -/
structure Series where
  limit : Option Nat
  newestFirst : List Sample
  deriving DecidableEq, Repr

namespace Series

/-- The empty series. -/
def empty (limit : Option Nat) : Series := ⟨limit, []⟩

/-- As many samples as may be kept, the newest ones. -/
def retain : Option Nat → List Sample → List Sample
  | none, newest => newest
  | some n, newest => newest.take (max n 1)

/-- Records a sample; the oldest ones make room for it. -/
def append (s : Series) (x : Sample) : Series :=
  { s with newestFirst := retain s.limit (x :: s.newestFirst) }

/-- The samples kept, in the order of their arrival. -/
def toList (s : Series) : List Sample := s.newestFirst.reverse

/-- The sample recorded last. -/
def latest? (s : Series) : Option Sample := s.newestFirst.head?

/-- The number of samples kept. -/
def length (s : Series) : Nat := s.newestFirst.length

/-- Whether no sample is kept. -/
def isEmpty (s : Series) : Bool := s.newestFirst.isEmpty

end Series

end LineClient
