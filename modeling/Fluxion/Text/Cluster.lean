import Fluxion.Text.ClusterBreak

/-! # Clusters of characters

A cluster is what a reader takes for one character: an extended grapheme cluster of Unicode. A text
is cut into clusters from the left. Whether a character joins the cluster before it hangs on the end
of that cluster alone.
-/

namespace Fluxion.Cluster

/-- Whether a mark may stand between the consonants of a conjunct. The zero width
    non-joiner may not. -/
def isConjunctMark (c : Char) : Bool :=
  (ClusterBreak.ofChar c == .extend || ClusterBreak.ofChar c == .joiner) && c != '\u200c'

/-- Whether a cluster ends with a consonant and marks with a linker among them. The last character
    comes first here and in the next two conditions. -/
def endsLinked (cluster : List Char) : Bool :=
  (cluster.takeWhile isConjunctMark).any isConjunctLinker &&
    (cluster.dropWhile isConjunctMark).head?.map ClusterBreak.ofChar == some .consonant

/-- Whether a cluster ends with a pictograph, marks and a joiner. -/
def endsJoined : List Char → Bool
  | [] => false
  | c :: cluster =>
      ClusterBreak.ofChar c == .joiner &&
        (cluster.dropWhile (ClusterBreak.ofChar · == .extend)).head?.map ClusterBreak.ofChar ==
          some .pictograph

/-- Whether a cluster ends with a flag of which one half is missing. -/
def endsHalfFlag (cluster : List Char) : Bool :=
  (cluster.takeWhile (ClusterBreak.ofChar · == .regional)).length % 2 == 1

/-- Whether a character belongs to the cluster before it, whose last character comes first. -/
def joins (cluster : List Char) (c : Char) : Bool :=
  match cluster.head?.map ClusterBreak.ofChar, ClusterBreak.ofChar c with
  | none, _ => false
  | some .carriageReturn, .lineFeed => true
  | some .carriageReturn, _ | some .lineFeed, _ | some .control, _ => false
  | _, .carriageReturn | _, .lineFeed | _, .control => false
  | some .leading, .leading | some .leading, .vowel => true
  | some .leading, .openSyllable | some .leading, .closedSyllable => true
  | some .openSyllable, .vowel | some .vowel, .vowel => true
  | some .openSyllable, .trailing | some .vowel, .trailing => true
  | some .closedSyllable, .trailing | some .trailing, .trailing => true
  | _, .extend | _, .joiner | _, .spacing => true
  | some .prepend, _ => true
  | _, .consonant => endsLinked cluster
  | _, .pictograph => endsJoined cluster
  | _, .regional => endsHalfFlag cluster
  | _, _ => false

/-- The clusters of a text that follows the beginning of a cluster. The last character of the
    beginning comes first. -/
def splitFrom : List Char → List Char → List (List Char)
  | cluster, [] => [cluster.reverse]
  | cluster, c :: text =>
      if joins cluster c then splitFrom (c :: cluster) text
      else cluster.reverse :: splitFrom [c] text

/-- The clusters of a text, from left to right. -/
def split : List Char → List (List Char)
  | [] => []
  | c :: text => splitFrom [c] text

theorem flatten_splitFrom (cluster text : List Char) :
    (splitFrom cluster text).flatten = cluster.reverse ++ text := by
  fun_induction splitFrom cluster text with
  | case1 => simp
  | case2 cluster c text _ ih => simp [ih]
  | case3 cluster c text _ ih => simp [ih]

theorem flatten_split (text : List Char) : (split text).flatten = text := by
  cases text with
  | nil => rfl
  | cons c text => exact flatten_splitFrom [c] text

end Fluxion.Cluster
