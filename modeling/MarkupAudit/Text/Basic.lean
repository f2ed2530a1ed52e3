/-!
Texts and their parts. A text is a list of Unicode scalar values, so that its offsets, lengths and
columns all count characters. Surrogates, which are not scalar values, are left out.
-/

namespace MarkupAudit

/-- The text of a document, of a tag or of an attribute's value. -/
abbrev Text := List Char

namespace Text

/-- The place that an offset names in a text of `size` characters: a negative offset counts from
the end, and an offset out of range is clipped. -/
def clip (size : Nat) (offset : Int) : Nat :=
  if offset < 0 then (size + offset).toNat else min offset.toNat size

/-- The characters from `start` up to and without `stop`; empty if `stop` is not after `start`. -/
def slice (t : Text) (start stop : Int) : Text :=
  (t.take (clip t.length stop)).drop (clip t.length start)

@[simp] theorem clip_natCast (size offset : Nat) : clip size offset = min offset size := by
  unfold clip
  split <;> omega

theorem slice_natCast (t : Text) (start stop : Nat) :
    slice t start stop = (t.take stop).drop start := by
  simp only [slice, clip_natCast]
  rw [← List.take_eq_take_min, List.drop_eq_drop_iff, List.length_take]
  omega

/-- The pieces between the separators, of which there is one more than of separators. -/
def splitAt (separator : Char) : Text → List Text
  | [] => [[]]
  | c :: r =>
    if c = separator then [] :: splitAt separator r
    else match splitAt separator r with
      | [] => [[c]]
      | piece :: pieces => (c :: piece) :: pieces

/-- Whether `part` occurs in the text. -/
def hasPart (part : Text) : Text → Bool
  | [] => part.isEmpty
  | c :: r => part.isPrefixOf (c :: r) || hasPart part r

/-- The pieces in order with the separator between neighbours. -/
def join (separator : Text) : List Text → Text
  | [] => []
  | [piece] => piece
  | piece :: pieces => piece ++ separator ++ join separator pieces

/-- The text with every `old` replaced by `new`. -/
def replaceChar (old new : Char) (t : Text) : Text :=
  t.map fun c => if c = old then new else c

end Text

end MarkupAudit
