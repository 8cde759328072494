namespace GameLauncher

/-- One part of a path: any text but the empty one, the dot and texts with a slash. -/
structure Name where
  text : String
  valid : text ≠ "" ∧ text ≠ "." ∧ '/' ∉ text.toList
  deriving DecidableEq

namespace Name

def of? (s : String) : Option Name :=
  if h : s ≠ "" ∧ s ≠ "." ∧ '/' ∉ s.toList then some ⟨s, h⟩ else none

theorem of?_text (n : Name) : of? n.text = some n := by
  simp only [of?, n.valid, ne_eq, not_false_eq_true, and_self, ↓reduceDIte]

theorem text_of_of? {s : String} {n : Name} (h : of? s = some n) : n.text = s := by
  unfold of? at h
  split at h
  · cases h; rfl
  · cases h

def maxBytes : Nat := 255

def isTooLong (n : Name) : Bool := maxBytes < n.text.utf8ByteSize

def hasNull (n : Name) : Bool := n.text.toList.contains '\x00'

def up : Name := ⟨"..", by decide⟩

end Name

end GameLauncher
