import Fluxion.Text.Cluster

/-! # Backspaces

A backspace in a typed line takes back the cluster before it. What it takes is counted in bytes:
it removes as many as the width of that cluster, and a width is kept in one byte. A cluster of
256 bytes or more is therefore taken back in part, and a removal that would tear a character
makes the line unusable.
-/

namespace Fluxion

/-- A line while it is typed: its characters, and the widths of the clusters that a backspace can
    still take back. The last of each comes first. -/
structure Typed where
  chars : List Char
  widths : List UInt8
  deriving Repr, DecidableEq

namespace Typed

def backspace : Char := '\x08'

/-- How many bytes a cluster takes in UTF-8, modulo 256. -/
def width (cluster : List Char) : UInt8 :=
  UInt8.ofNat (cluster.foldr (fun c size => c.utf8Size + size) 0)

/-- The characters that are left when so many bytes are removed, unless that would
    tear a character. -/
def dropBytes? : Nat → List Char → Option (List Char)
  | 0, chars => some chars
  | _ + 1, [] => none
  | n + 1, c :: chars => if c.utf8Size ≤ n + 1 then dropBytes? (n + 1 - c.utf8Size) chars else none

/-- The line after one more cluster. A backspace with nothing before it does nothing. -/
def enter? (typed : Typed) (cluster : List Char) : Option Typed :=
  if cluster = [backspace] then
    match typed.widths with
    | [] => some typed
    | w :: widths => (dropBytes? w.toNat typed.chars).map (⟨·, widths⟩)
  else
    some ⟨cluster.reverse ++ typed.chars, width cluster :: typed.widths⟩

/-- What is left of a typed text when its backspaces have done their work. -/
def result? (text : List Char) : Option (List Char) :=
  ((Cluster.split text).foldlM enter? ⟨[], []⟩).map fun typed => typed.chars.reverse

theorem foldlM_enter? {clusters : List (List Char)} (h : [backspace] ∉ clusters) (typed : Typed) :
    ∃ widths, clusters.foldlM enter? typed =
      some ⟨clusters.flatten.reverse ++ typed.chars, widths⟩ := by
  induction clusters generalizing typed with
  | nil => exact ⟨typed.widths, rfl⟩
  | cons cluster clusters ih =>
      simp only [List.mem_cons, not_or] at h
      have hne : cluster ≠ [backspace] := fun heq => h.1 heq.symm
      obtain ⟨widths, hrest⟩ :=
        ih h.2 ⟨cluster.reverse ++ typed.chars, width cluster :: typed.widths⟩
      refine ⟨widths, ?_⟩
      rw [List.foldlM_cons, enter?, if_neg hne, Option.bind_eq_bind, Option.bind_some, hrest]
      simp

theorem result?_of_not_mem {text : List Char} (h : backspace ∉ text) :
    result? text = some text := by
  have hclusters : [backspace] ∉ Cluster.split text := by
    intro hmem
    apply h
    rw [← Cluster.flatten_split text]
    exact List.mem_flatten_of_mem hmem (List.mem_singleton_self backspace)
  obtain ⟨widths, hfold⟩ := foldlM_enter? hclusters ⟨[], []⟩
  rw [result?, hfold]
  simp [Cluster.flatten_split]

end Typed

end Fluxion
